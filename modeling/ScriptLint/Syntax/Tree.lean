/-
Syntax trees, as a parser builds them: every node has a span of bytes,
a form, and the documentation comment attached to it.
-/
import ScriptLint.Syntax.Form

namespace ScriptLint

/-- A syntax tree. The span runs from the first byte of the first token
to the byte behind the last. -/
inductive Tree where
  | node (start stop : Nat) (doc : Option String)
    (form : Form (Option Tree))

namespace Tree

def start : Tree → Nat
  | .node start _ _ _ => start

def stop : Tree → Nat
  | .node _ stop _ _ => stop

/-- The attached documentation comment, with its delimiters. -/
def doc : Tree → Option String
  | .node _ _ doc _ => doc

def form : Tree → Form (Option Tree)
  | .node _ _ _ form => form

/-- The tree with a documentation comment attached. A comment that it
has already is kept. -/
def withDoc (doc : Option String) : Tree → Tree
  | .node start stop own form => .node start stop (own.or doc) form

/-- The text of an identifier. -/
def identifier? : Tree → Option String
  | .node _ _ _ (.identifier text) => some text
  | _ => none

end Tree

end ScriptLint
