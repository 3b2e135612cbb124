import GraphImport.Text.Blank
/-!
# Sorting clauses in queries

A query sorts its rows when it holds the words "order" and "by", in any case, with nothing but
spaces between them and at least one of those. The words may be parts of longer ones.
-/
namespace GraphImport.Rules

/-- What follows a word at the start of some text, letters compared up to ASCII case. -/
def afterWord? : List Char → List Char → Option (List Char)
  | [], cs => some cs
  | _ :: _, [] => none
  | w :: word, c :: cs => if c.toLower == w then afterWord? word cs else none

/-- Whether a sorting clause stands at the start of some text. -/
def startsWithOrderBy (cs : List Char) : Bool :=
  match afterWord? ['o', 'r', 'd', 'e', 'r'] cs with
  | some (gap :: rest) =>
    Text.isSpace gap && (afterWord? ['b', 'y'] (rest.dropWhile Text.isSpace)).isSome
  | _ => false

/-- Whether a sorting clause stands anywhere in some text. -/
def hasOrderBy : List Char → Bool
  | [] => false
  | c :: cs => startsWithOrderBy (c :: cs) || hasOrderBy cs

/-- Whether a query sorts its rows. -/
def sorts : Option String → Bool
  | none => false
  | some query => !Text.isBlank query && hasOrderBy query.toList

end GraphImport.Rules
