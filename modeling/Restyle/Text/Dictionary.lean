/-!
Dictionaries: texts under keys that are kept in order, each key once.
-/

namespace Restyle.Text

/-- Puts a text under a key, in the place that the order of the keys gives it. -/
def putSorted (key value : String) : List (String × String) → List (String × String)
  | [] => [(key, value)]
  | (k, v) :: rest =>
    if key < k then (key, value) :: (k, v) :: rest
    else if key = k then (key, value) :: rest
    else (k, v) :: putSorted key value rest

/-- Texts under keys, in the order of the keys. -/
structure Dictionary where
  entries : List (String × String)
  deriving DecidableEq, Repr

namespace Dictionary

def empty : Dictionary := ⟨[]⟩

def isEmpty (d : Dictionary) : Bool :=
  d.entries.isEmpty

def put (d : Dictionary) (key value : String) : Dictionary :=
  ⟨putSorted key value d.entries⟩

/-- The dictionary of a list, in which the last text under a key counts. -/
def ofList (entries : List (String × String)) : Dictionary :=
  entries.foldl (fun d e => d.put e.1 e.2) empty

/-- The text under a key. -/
def get? (d : Dictionary) (key : String) : Option String :=
  (d.entries.find? fun e => e.1 = key).map Prod.snd

end Dictionary

end Restyle.Text
