/-!
The three ways to write a name of several words: `kebab-case`, `camelCase`, and the slug of any
text. Only ASCII letters change; all other characters are kept.
-/

namespace Restyle.Text

def isUpper (c : Char) : Bool :=
  'A' ≤ c && c ≤ 'Z'

def isLower (c : Char) : Bool :=
  'a' ≤ c && c ≤ 'z'

def isNumeral (c : Char) : Bool :=
  '0' ≤ c && c ≤ '9'

def isAlphanumeric (c : Char) : Bool :=
  isUpper c || isLower c || isNumeral c

/-- Writes a dash before each capital that follows a small letter or a digit. `afterWord` says
whether the character before is one of those. -/
def kebabFrom (afterWord : Bool) : List Char → List Char
  | [] => []
  | c :: cs =>
    if isUpper c then
      (if afterWord then ['-'] else []) ++ c.toLower :: kebabFrom false cs
    else c :: kebabFrom (isLower c || isNumeral c) cs

/-- `primaryForeground` becomes `primary-foreground`. -/
def toKebab (s : String) : String :=
  String.ofList (kebabFrom false s.toList)

/-- Turns a dash and the small letter behind it into a capital. -/
def camelFrom : List Char → List Char
  | '-' :: c :: cs => if isLower c then c.toUpper :: camelFrom cs else '-' :: camelFrom (c :: cs)
  | c :: cs => c :: camelFrom cs
  | [] => []

/-- `primary-foreground` becomes `primaryForeground`. -/
def toCamel (s : String) : String :=
  String.ofList (camelFrom s.toList)

/-- The letters and digits in small letters, with a dash for what stands between two of them.
`started` says whether there have been any, and `gap` whether something else followed. -/
def slugFrom (started gap : Bool) : List Char → List Char
  | [] => []
  | c :: cs =>
    if isAlphanumeric c then
      (if started && gap then ['-'] else []) ++ c.toLower :: slugFrom true false cs
    else slugFrom started true cs

/-- `Cyberpunk Neon!! v2` becomes `cyberpunk-neon-v2`. -/
def toSlug (s : String) : String :=
  String.ofList (slugFrom false false s.toList)

/-- Whether a name consists of small letters, digits and dashes, and is not empty. -/
def isKebab (s : String) : Bool :=
  !s.toList.isEmpty && s.toList.all fun c => isLower c || isNumeral c || c = '-'

end Restyle.Text
