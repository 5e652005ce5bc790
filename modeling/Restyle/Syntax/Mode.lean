import Restyle.Syntax.Token

/-!
Modes: which tokens are looked for together. A state that admits few tokens still tells more of them
apart, so that a token that does not fit is met as what it is.
-/

namespace Restyle.Syntax.Mode

open Grammar

/-- Pairs of tokens of which the first begins like the second one, and would be taken where only the
second one may stand. -/
def clashes : List (Nat × Nat) :=
  let spelled (s : String) : Nat := terminalNumber (.spelled s)
  ([("typeof", "type"), ("async", "as"), ("?.", "?"), ("\x7b|", "\x7b"), ("||", "|"), ("||=", "|"),
      ("<<", "<"), ("--", "-")].map fun (s, t) => (spelled s, spelled t))
    ++ ["const", "else", "extends"].map (fun s => (Token.number .dashedName, spelled s))
    ++ ["of", "implements"].map fun s => (spelled s, Token.number .regexFlags)

/-- Whether one of some tokens would be taken for another one that is known. -/
def clash (tokens known : TokenSet) : Bool :=
  clashes.any fun (t, u) => tokens.has t && known.has u

/-- The tokens of a mode: pieces of punctuation, which blanks divide, and constructs. Comments are
looked for in every mode. -/
def ofTokens (marks : String) (constructs : List Construct) : TokenSet :=
  let spelled := (marks.splitOn " ").map fun s => terminalNumber (.spelled s)
  (spelled ++ constructs.map Token.number).foldl (fun set n => set.union (.single n))
    (.single Token.comment)

/-- The modes in the order in which they are considered. -/
def all : List TokenSet :=
  let values : List Construct := [.identifier, .number, .privateName]
  [(ofTokens ("! \" & ' ( ) * + ++ , - -- . ... / : ; < = => > ? @ [ ] \x60 \x7b | |\x7d \x7d ~")
        (.hashBang :: values)).union (.single Token.finish),
    ofTokens ("! != !== \" % %= & && &&= &= ' ( ) * ** **= *= + ++ += , - -- -= . ... / /= : ; < "
        ++ "<< <<= <= = == === => > >= >> >>= >>> >>>= ? ?. ?? ??= @ [ ] ^ ^= \x60 \x7b \x7b| | "
        ++ "|= || ||= |\x7d \x7d ~") values,
    ofTokens "! \" & ' ( ) * + ++ , - -- . ... / < ? @ [ ] \x60 \x7b \x7b| | ~" values,
    ofTokens ("! != !== \" % %= & && &&= &= ' ( ) * ** **= *= + ++ += , - -- -= . ... / /= : ; < "
        ++ "<< <<= <= = == === => > >= >> >>= >>> >>>= ? ?. ?? ??= @ [ ] ^ ^= \x60 \x7b | |= || "
        ++ "||= \x7d ~") values,
    (ofTokens ("! != !== % & && \" ' ( ) * ** + ++ , - -- . / : ; < << <= = == === > >= >> >>> ? "
        ++ "?. ?? @ [ ] ^ \x60 \x7b | || |\x7d \x7d ~") values).union (.single Token.finish),
    ofTokens "\" & ' ( * + , - ... ; < > ? @ [ ] \x60 \x7b \x7b| | |\x7d \x7d" values,
    ofTokens "\" & ' ( * + - /> < > ? [ \x60 \x7b \x7b| |" [.identifier, .dashedName, .number],
    ofTokens "! \" & ' ( ) * + ++ , - -- . ... / : ; < = => > ? ?. @ [ ] \x60 \x7b | |\x7d \x7d ~"
      values,
    ofTokens "\" ' ( * + , - ... ; < @ [ \x7b |\x7d \x7d" values,
    ofTokens ("! != !== % & && ( ) * ** + ++ , - -- . / : ; < << <= == === > >= >> >>> ?. ?? [ ] ^ "
        ++ "\x60 \x7b | || \x7d") [.identifier, .regexFlags],
    ofTokens "& ( +?: , -?: . /> : < = > ?: [ \x7b |" [.identifier, .dashedName],
    ofTokens "$\x7b < </ \x60 \x7b" [.escapeSequence, .characterReference],
    ofTokens "\"" [.escapeSequence, .doubleFragment],
    ofTokens "'" [.escapeSequence, .singleFragment],
    ofTokens "\"" [.characterReference, .doubleMarkupFragment],
    ofTokens "'" [.characterReference, .singleMarkupFragment],
    .union (.single Token.comment) (.single Token.regexPattern)]

/-- The tokens that are told by their characters, where some terminals may stand. Keywords are found
as identifiers first. -/
def shapes (valid : TokenSet) : TokenSet :=
  let contextual := contextualTokens.foldl
    (fun set c => set.union (.single (constructNumber c))) TokenSet.empty
  let words := valid &&& Token.keywordSet
  let rest := valid.without (contextual.union Token.keywordSet)
  if words = .empty then rest else rest.union (.single Token.identifier)

/-- What is looked for where some terminals may stand: the first mode that has them all, and no
token that clashes with one of them. -/
def of (valid : TokenSet) : TokenSet :=
  let needed := shapes valid
  (all.find? fun mode => needed.without mode = .empty && !clash (mode.without needed) needed).getD
    Token.anywhere

end Restyle.Syntax.Mode
