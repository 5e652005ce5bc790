import Restyle.Text.CaseTable

/-!
Lowercase texts of any script. A capital sigma at the end of a word has a small letter of its own.
-/

namespace Restyle.Text

/-- The small letter of a character that is not affected by its neighbours. -/
def lowerChar (c : Char) : List Char :=
  if c.toNat < 128 then [c.toLower]
  else if c = '\u0130' then ['i', '\u0307']
  else
    let n := c.toNat
    match CaseTable.lowercase.find? fun (low, high, step, _) =>
        low ≤ n && n ≤ high && (n - low) % step = 0 with
    | some (_, _, _, distance) => [Char.ofNat (n + distance).toNat]
    | none => [c]

/-- Whether the first character that is not skipped has case. -/
def meetsCased (cs : List Char) : Bool :=
  match cs.dropWhile (CaseTable.contains CaseTable.ignorable) with
  | c :: _ => CaseTable.contains CaseTable.cased c
  | [] => false

/-- The lowercase of characters that stand behind those in `before`, the last one first. -/
def lowerFrom (before : List Char) : List Char → List Char
  | [] => []
  | c :: cs =>
    (if c = 'Σ' then [if meetsCased before && !meetsCased cs then 'ς' else 'σ'] else lowerChar c)
      ++ lowerFrom (c :: before) cs

/-- The text in small letters. -/
def lowercase (s : String) : String :=
  String.ofList (lowerFrom [] s.toList)

end Restyle.Text
