import SubstLisp.Evaluation.Value

/-!
# Environments

All bindings live in one flat table.  Builtin procedures are kept apart from it, under their
keywords: a program binds identifiers only, and no identifier is spelled like a keyword.
-/

namespace SubstLisp

/-- Names and the values they are bound to.  Each name occurs once; a new one comes last. -/
abbrev Bindings := List (String × Value)

/-- Bind a name to a value, in the place of any earlier value. -/
def Bindings.insert (name : String) (value : Value) : Bindings → Bindings
  | [] => [(name, value)]
  | (bound, earlier) :: rest =>
      if bound = name then (name, value) :: rest
      else (bound, earlier) :: Bindings.insert name value rest

/-- Bound names and available builtin procedures. -/
structure Environment where
  bindings : Bindings
  builtins : List Builtin
deriving Inhabited

/-- Names in the order of their code points, each once. -/
def sortNames (names : List String) : List String :=
  names.eraseDups.mergeSort fun a b => !(b < a : Bool)

namespace Environment

/-- Nothing is bound, and there are no builtin procedures. -/
def empty : Environment where
  bindings := []
  builtins := []

/-- Nothing is bound, and all builtin procedures are available. -/
def standard : Environment where
  bindings := []
  builtins := Builtin.all

def lookup? (environment : Environment) (name : String) : Option Value :=
  environment.bindings.lookup name

def provides (environment : Environment) (builtin : Builtin) : Bool :=
  environment.builtins.contains builtin

/-- Bind a name, whether or not it was bound before. -/
def define (environment : Environment) (name : String) (value : Value) : Environment :=
  { environment with bindings := environment.bindings.insert name value }

/-- Bind a name that is bound already. -/
def assign? (environment : Environment) (name : String) (value : Value) : Option Environment :=
  (environment.lookup? name).map fun _ => environment.define name value

/-- Everything that has a name: the bound names and the builtin procedures. -/
def names (environment : Environment) : List String :=
  sortNames (environment.bindings.map Prod.fst ++ environment.builtins.map Builtin.spelling)

def sortedBindings (environment : Environment) : Bindings :=
  environment.bindings.mergeSort fun a b => !(b.1 < a.1 : Bool)

end Environment

/-- After an insertion, a name has the new value if it is the inserted one, and else its old one. -/
theorem Bindings.lookup_insert (name other : String) (value : Value) (bindings : Bindings) :
    (bindings.insert name value).lookup other =
      if other = name then some value else bindings.lookup other := by
  induction bindings with
  | nil => grind [insert]
  | cons entry rest ih => grind [insert]

namespace Environment

/-- A definition binds its name and no other. -/
theorem lookup?_define (environment : Environment) (name other : String) (value : Value) :
    (environment.define name value).lookup? other =
      if other = name then some value else environment.lookup? other :=
  environment.bindings.lookup_insert name other value

end Environment

end SubstLisp
