import AdaptiveDispatch.Program.Script

/-!
# Programs

A program is a block of statements over variables. It can coerce values and read
sequences at the sites of an engine, and has two loops, the three signals, and a
statement that rescues faults.
-/

namespace AdaptiveDispatch

inductive Expr where
  | constant (value : Constant)
  | variable (name : String)
  | add (left right : Expr)

inductive Condition where
  | literal (holds : Bool)
  | less (left right : Expr)
  | equal (left right : Expr)
  | not (condition : Condition)
  | countBelow (name : String) (limit : Expr)
  | raise (text : String)

/-- What a loop over items runs through. -/
inductive Items where
  | written (items : List Expr)
  | elements (register : String) (site : SiteId)

inductive Stmt where
  | value (e : Expr)
  | set (name : String) (e : Expr)
  | increment (name : String)
  | trace (e : Expr)
  | ifElse (condition : Condition) (yes no : List Stmt)
  | next (e : Expr)
  | leave (e : Expr)
  | redo
  | raise (text : String)
  | coerce (site : SiteId) (e : Expr) (strict : Bool) (script : Option Script)
  | read (site : SiteId) (register : String) (index : Nat)
  | whileDo (condition : Condition) (body : List Stmt)
  | each (name : String) (items : Items) (body : List Stmt)
  | rescue (body handler : List Stmt) (reraise : Bool)

abbrev Block := List Stmt

end AdaptiveDispatch
