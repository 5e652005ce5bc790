import Restyle.Syntax.Subtree

/-!
The stack of the parser, as a graph. Where a text can be read in several ways the stack has several
tops (`Head`), and readings that come to the same state at the same place share one node, with a
link to what lies below for each of them.

* `push`, `popCount` and `popAll` add and remove trees; a pop answers one slice for each way down.
* `merge` joins two tops, `addLink` two ways down.
* `summary` lists the states that lie below a top.
-/

namespace Restyle.Syntax

/-- A way down from a node: the node below and the tree in between. A link without tree is where the
parser gave up on the state below. -/
structure Link where
  node : Nat
  tree : Option Subtree
  deriving Inhabited

/-- A node of the stack. What it says of cost, weight and count holds for all that lies below. -/
structure StackNode where
  state : Nat
  place : Nat
  cost : Nat
  weight : Int
  /-- How many nodes show below. -/
  count : Nat
  links : Array Link
  deriving Inhabited

/-- Whether a reading goes on. -/
inductive Status where
  | active
  | halted
  /-- The token ahead does not fit. -/
  | paused (lookahead : Subtree)
  deriving Inhabited

/-- A state that lies below, and how many trees lie above it. -/
structure Depth where
  place : Nat
  depth : Nat
  state : Nat
  deriving Inhabited

/-- A top of the stack. -/
structure Head where
  node : Nat
  /-- How many nodes showed when the last error was met. -/
  countAtError : Nat
  status : Status
  summary : Array Depth
  deriving Inhabited

/-- A stack with all its tops. -/
structure Stack where
  nodes : Array StackNode
  heads : Array Head
  deriving Inhabited

/-- What a pop took from one top: the trees, and the top that is left. -/
structure Slice where
  version : Nat
  trees : List Subtree
  deriving Inhabited

namespace Stack

/-- The number of the state in which the parser skips text. -/
def errorState : Nat := 0

/-- The number of the state before a text. -/
def initialState : Nat := 1

/-- How many ways down a node may have. -/
def maxLinks : Nat := 8

/-- How many ways down are followed at a time. -/
def maxWalkers : Nat := 64

/-- A stack with one top, in a state at the start of the text. -/
def start (state : Nat) : Stack :=
  ⟨#[⟨state, 0, 0, 0, 0, #[]⟩], #[⟨0, 0, .active, #[]⟩]⟩

/-! ### Looking -/

def head (s : Stack) (version : Nat) : Head :=
  s.heads.getD version default

def node (s : Stack) (id : Nat) : StackNode :=
  s.nodes.getD id default

/-- The node at a top. -/
def top (s : Stack) (version : Nat) : StackNode :=
  s.node (s.head version).node

/-- How many tops there are. -/
def size (s : Stack) : Nat := s.heads.size

def state (s : Stack) (version : Nat) : Nat := (s.top version).state

def place (s : Stack) (version : Nat) : Nat := (s.top version).place

def isActive (s : Stack) (version : Nat) : Bool :=
  match (s.head version).status with
  | .active => true
  | _ => false

def isHalted (s : Stack) (version : Nat) : Bool :=
  match (s.head version).status with
  | .halted => true
  | _ => false

def isPaused (s : Stack) (version : Nat) : Bool :=
  match (s.head version).status with
  | .paused _ => true
  | _ => false

/-- What the errors below a top cost. A reading that has given up and skipped nothing yet pays for
that too. -/
def cost (s : Stack) (version : Nat) : Nat :=
  let n := s.top version
  let givenUp : Bool :=
    n.state = errorState && (match n.links[0]? with | some l => l.tree.isNone | none => false)
  if s.isPaused version || givenUp then n.cost + costPerRecovery else n.cost

/-- How many nodes show since the last error. -/
def countSinceError (s : Stack) (version : Nat) : Nat :=
  (s.top version).count - (s.head version).countAtError

/-- Forgets that there have been more nodes at the last error than there are now. -/
def settleCount (s : Stack) (version : Nat) : Stack :=
  let count := (s.top version).count
  if count < (s.head version).countAtError then
    { s with heads := s.heads.modify version fun h => { h with countAtError := count } }
  else s

/-- Whether the top reading has gone on since the last error, within the last `fuel` trees. -/
def hasAdvancedFrom (s : Stack) (countAtError : Nat) : Nat → Nat → Bool
  | 0, _ => false
  | fuel + 1, id =>
    let n := s.node id
    let link := n.links.getD 0 default
    match link.tree with
    | some tree =>
      if tree.facts.lead < tree.facts.stop then true
      else if countAtError < n.count && tree.cost = 0 then
        hasAdvancedFrom s countAtError fuel link.node
      else false
    | none => false

/-- Whether a reading has gone on since the last error. -/
def hasAdvanced (s : Stack) (version : Nat) : Bool :=
  let h := s.head version
  (s.node h.node).cost = 0 || s.hasAdvancedFrom h.countAtError s.nodes.size h.node

/-! ### Tops -/

def modifyHead (s : Stack) (version : Nat) (f : Head → Head) : Stack :=
  { s with heads := s.heads.modify version f }

/-- Forgets a top. -/
def remove (s : Stack) (version : Nat) : Stack :=
  { s with heads := s.heads.eraseIdxIfInBounds version }

/-- Puts the later of two tops in the place of the earlier one. -/
def renumber (s : Stack) (source target : Nat) : Stack :=
  if source = target then s
  else
    let later := s.head source
    let earlier := s.head target
    let moved :=
      if later.summary.isEmpty then { later with summary := earlier.summary } else later
    { s with heads := (s.heads.set! target moved).eraseIdxIfInBounds source }

/-- Exchanges two tops. -/
def exchange (s : Stack) (v w : Nat) : Stack :=
  let a := s.head v
  let b := s.head w
  { s with heads := (s.heads.set! v b).set! w a }

/-- Doubles a top; the new one is the last. -/
def copy (s : Stack) (version : Nat) : Stack :=
  { s with heads := s.heads.push { s.head version with summary := #[] } }

def halt (s : Stack) (version : Nat) : Stack :=
  s.modifyHead version fun h => { h with status := .halted }

/-- Lets a reading wait before a token that does not fit. -/
def pause (s : Stack) (version : Nat) (lookahead : Subtree) : Stack :=
  let count := (s.top version).count
  s.modifyHead version fun h => { h with status := .paused lookahead, countAtError := count }

/-- Lets a waiting reading go on. -/
def resume (s : Stack) (version : Nat) : Stack :=
  s.modifyHead version fun h => { h with status := .active }

/-! ### Pushing -/

/-- Adds a tree to a top, or the mark that the state below is given up. -/
def push (s : Stack) (version : Nat) (tree : Option Subtree) (state : Nat) : Stack :=
  let below := (s.head version).node
  let base := s.node below
  let new : StackNode :=
    match tree with
    | some t =>
      { state := state
        place := t.facts.stop
        cost := base.cost + t.cost
        weight := base.weight + t.weight
        count := base.count + t.nodeCount
        links := #[⟨below, tree⟩] }
    | none => { base with state := state, links := #[⟨below, none⟩] }
  let id := s.nodes.size
  let heads := s.heads.modify version fun h =>
    { h with
      node := id
      countAtError := if tree.isNone then new.count else h.countAtError }
  ⟨s.nodes.push new, heads⟩

/-! ### Joining -/

/-- Whether two trees on links count as the same. -/
def sameTree (source : Source) : Option Subtree → Option Subtree → Bool
  | none, none => true
  | some t, some u => t.isEquivalent source u
  | _, _ => false

/-- The weight of the tree on a link. -/
def treeWeight (t : Option Subtree) : Int :=
  (t.map Subtree.weight).getD 0

/-- Adds a way down to a node. A way with the same tree to the same node, or to a node that can be
joined, is not added twice. The fuel bounds how deep nodes are joined. -/
def addLink (source : Source) : Nat → Array StackNode → Nat → Link → Array StackNode
  | 0, nodes, _, _ => nodes
  | fuel + 1, nodes, id, link =>
    if link.node = id then nodes
    else
      let self := nodes.getD id default
      let below := nodes.getD link.node default
      let weight := below.weight + treeWeight link.tree
      let joinable (l : Link) : Bool :=
        let n := nodes.getD l.node default
        l.node = link.node
          || (n.state = below.state && n.place = below.place && n.cost = below.cost)
      match self.links.findIdx? fun l => sameTree source l.tree link.tree && joinable l with
      | some i =>
        let old := self.links.getD i default
        if old.node = link.node then
          if treeWeight old.tree < treeWeight link.tree then
            nodes.modify id fun n =>
              { n with links := n.links.modify i fun _ => link, weight := weight }
          else nodes
        else
          let nodes := below.links.foldl (fun nodes l => addLink source fuel nodes old.node l) nodes
          nodes.modify id fun n => { n with weight := max n.weight weight }
      | none =>
        if maxLinks ≤ self.links.size then nodes
        else
          let count := below.count + (link.tree.map Subtree.nodeCount).getD 0
          nodes.modify id fun n =>
            { n with
              links := n.links.push link
              count := max n.count count
              weight := max n.weight weight }

/-- Whether two tops can be joined: they are in the same state at the same place, at the same
cost. -/
def canMerge (s : Stack) (v w : Nat) : Bool :=
  let a := s.top v
  let b := s.top w
  s.isActive v && s.isActive w && a.state = b.state && a.place = b.place && a.cost = b.cost

/-- Joins the second of two tops to the first, if that is possible. -/
def merge? (source : Source) (s : Stack) (v w : Nat) : Option Stack :=
  if s.canMerge v w then
    let id := (s.head v).node
    let nodes := (s.top w).links.foldl
      (fun nodes l => addLink source s.nodes.size nodes id l) s.nodes
    let s := { s with nodes := nodes }
    let n := s.node id
    let s :=
      if n.state = errorState then s.modifyHead v fun h => { h with countAtError := n.count }
      else s
    some (s.remove w)
  else none

/-! ### Popping -/

/-- A walk down from a top: the node that it has come to, the trees that it has passed, and how many
of them count. -/
structure Walker where
  node : Nat
  trees : List Subtree
  count : Nat
  deriving Inhabited

/-- A walk one link further. -/
def Walker.step (w : Walker) (l : Link) : Walker :=
  match l.tree with
  | some t => ⟨l.node, t :: w.trees, if t.isExtra then w.count else w.count + 1⟩
  | none => ⟨l.node, w.trees, w.count + 1⟩

/-- What to do at a node of a walk: whether to take the trees passed so far, and whether to stop. -/
structure Visit where
  takes : Bool
  stops : Bool

/-- Adds a slice with a new top, or behind the slices that end at the same node. -/
def addSlice (s : Stack) (slices : Array Slice) (version : Nat) (w : Walker) :
    Stack × Array Slice :=
  let same := (List.range slices.size).reverse.find? fun i =>
    (s.head (slices.getD i default).version).node = w.node
  match same with
  | some i =>
    (s, slices.insertIdxIfInBounds (i + 1) ⟨(slices.getD i default).version, w.trees⟩)
  | none =>
    let new : Head := { s.head version with node := w.node, status := .active, summary := #[] }
    ({ s with heads := s.heads.push new }, slices.push ⟨s.heads.size, w.trees⟩)

/-- The state of a search down from a top. -/
structure Search (σ : Type) where
  stack : Stack
  slices : Array Slice
  found : σ

/-- Visits the nodes of all walks of one round, and moves the walks on. -/
def round {σ : Type} (visit : σ → Walker → σ × Visit) (version : Nat) :
    Search σ → (kept added : Array Walker) → List Walker → Search σ × List Walker
  | search, kept, added, [] => (search, kept.toList ++ added.toList)
  | search, kept, added, w :: more =>
    let n := search.stack.node w.node
    let (found, v) := visit search.found w
    let stops := v.stops || n.links.isEmpty
    let search := { search with found := found }
    let search : Search σ :=
      if v.takes then
        let (stack, slices) := addSlice search.stack search.slices version w
        { search with stack := stack, slices := slices }
      else search
    if stops then round visit version search kept added more
    else
      let room := maxWalkers - (kept.size + 1 + more.length + added.size)
      let others := (n.links.toList.drop 1).take room
      let added := others.foldl (fun added l => added.push (w.step l)) added
      round visit version search (kept.push (w.step (n.links.getD 0 default))) added more

/-- Follows all ways down from a top, in rounds. The fuel bounds their number. -/
def rounds {σ : Type} (visit : σ → Walker → σ × Visit) (version : Nat) :
    Nat → Search σ → List Walker → Search σ
  | 0, search, _ => search
  | _, search, [] => search
  | fuel + 1, search, walkers =>
    let (search, walkers) := round visit version search #[] #[] walkers
    rounds visit version fuel search walkers

/-- Follows all ways down from a top. -/
def descend {σ : Type} (s : Stack) (version : Nat) (visit : σ → Walker → σ × Visit)
    (found : σ) : Search σ :=
  rounds visit version (s.nodes.size + 1) ⟨s, #[], found⟩ [⟨(s.head version).node, [], 0⟩]

/-- Takes a number of trees from a top. Trees between symbols come along and do not count. -/
def popCount (s : Stack) (version count : Nat) : Stack × List Slice :=
  let search := s.descend version
    (fun (u : Unit) w => (u, if w.count = count then ⟨true, true⟩ else ⟨false, false⟩)) ()
  (search.stack, search.slices.toList)

/-- Takes all trees from a top. -/
def popAll (s : Stack) (version : Nat) : Stack × List Slice :=
  let nodes := s.nodes
  let search := s.descend version
    (fun (u : Unit) w =>
      let isLast := ((nodes.getD w.node default).links).isEmpty
      (u, ⟨isLast, isLast⟩)) ()
  (search.stack, search.slices.toList)

/-- Takes the error that lies on a top, if there is one. -/
def popError (s : Stack) (version : Nat) : Stack × List Subtree :=
  let isError (t : Option Subtree) : Bool := (t.map Subtree.isError).getD false
  if (s.top version).links.any fun l => isError l.tree then
    let search := s.descend version
      (fun (done : Bool) w =>
        match w.trees with
        | [] => (done, ⟨false, false⟩)
        | t :: _ => if !done && t.isError then (true, ⟨true, true⟩) else (done, ⟨false, true⟩))
      false
    match search.slices[0]? with
    | some slice => (search.stack.renumber slice.version version, slice.trees)
    | none => (search.stack, [])
  else (s, [])

/-- How deep the states below a top are listed. -/
def summaryDepth : Nat := 16

/-- Lists the states that lie below a top, and remembers them there. -/
def recordSummary (s : Stack) (version : Nat) : Stack :=
  let nodes := s.nodes
  let isKnown (found : Array Depth) (depth state : Nat) : Bool :=
    (found.toList.reverse.takeWhile fun d => depth ≤ d.depth).any fun d =>
      d.depth = depth && d.state = state
  let search := s.descend version
    (fun (found : Array Depth) w =>
      let n := nodes.getD w.node default
      if summaryDepth < w.count then (found, ⟨false, true⟩)
      else if isKnown found w.count n.state then (found, ⟨false, false⟩)
      else (found.push ⟨n.place, w.count, n.state⟩, ⟨false, false⟩))
    #[]
  s.modifyHead version fun h => { h with summary := search.found }

end Stack

end Restyle.Syntax
