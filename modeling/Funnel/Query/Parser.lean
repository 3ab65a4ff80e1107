/-!
# Parsers of statements

A parser makes a tree of a text, or says why it has none. Of a tree only the root is kept, and
whether the rows go into a table that the statement names. Which parser is used is left open.
-/

set_option autoImplicit false

namespace Funnel.Sql

/-- What the root of a statement's tree is. -/
inductive Kind where
  | select | union | other
deriving DecidableEq, Repr

structure Tree where
  kind : Kind
  hasTarget : Bool
deriving DecidableEq, Repr

def Tree.isQuery (t : Tree) : Bool := t.kind != .other

/-- Why a text has no tree: it is no statement, or the parser failed in a way that has a name of
its own. -/
inductive Failure where
  | badSyntax
  | named (name : String)
deriving DecidableEq, Repr

abbrev Parser : Type := String → Except Failure Tree

end Funnel.Sql
