import QueryBook.Declaration.Reader
import QueryBook.Query.Validation

/-!
# From a text to a book

A text is read declaration by declaration, each declaration is given its meaning, and the book
they make up is checked. Any fault refuses the whole text.
-/

namespace QueryBook

/-- Why a text gives no book: it is malformed, or it makes no sense. -/
inductive ReadError where
  | malformed (e : SyntaxError)
  | refused (e : BookError)
deriving Repr

/-- The message of either error. -/
def ReadError.message : ReadError → String
  | malformed e => e.message
  | refused e => e.message

namespace Book

/-- The queries that declarations declare, or the first one that declares none. -/
def queriesOf : List Declaration → Except BookError (List Query)
  | [] => .ok []
  | d :: rest => do
    let q ← Query.ofDeclaration d
    let qs ← queriesOf rest
    pure (q :: qs)

/-- The book of a text, unchecked. -/
def parse (text : String) (sourceName : String) : Except ReadError Book := do
  let declarations ← (Declaration.readAll text).mapError .malformed
  let queries ← (queriesOf declarations).mapError .refused
  pure { queries, sourceName }

/-- The book of a text, checked. -/
def read (text : String) (sourceName : String) : Except ReadError Book := do
  let book ← parse text sourceName
  (check book).mapError .refused
  pure book

end Book

end QueryBook
