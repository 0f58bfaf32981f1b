import Verdict.Expr

/-! Attributes of declarations and commands.

An attribute is a key with parameters. A lookup by type goes through the attributes of its
key in order and takes the first whose parameters have the shape it wants, so one of the
wrong shape is as good as absent. -/
namespace Verdict

inductive Param
  | bool (value : Bool)
  | int (value : Int)
  | text (value : String)
  | expr (value : Expr)
  deriving Inhabited, Repr

structure Attribute where
  key : String
  params : List Param
  deriving Inhabited, Repr

/-- Attributes in the order in which they were attached; a key may occur many times. -/
abbrev Attributes := List Attribute

namespace Attributes

/-- The attributes of one key. -/
def named (attrs : Attributes) (key : String) : Attributes :=
  attrs.filter (·.key = key)

/-- The first attribute of a key with this many parameters. -/
def withArity? (attrs : Attributes) (key : String) (arity : Nat) : Option Attribute :=
  (attrs.named key).find? (·.params.length = arity)

/-- A flag: an attribute without parameters reads as true. -/
def flag? (attrs : Attributes) (key : String) : Option Bool :=
  (attrs.named key).findSome? fun a =>
    match a.params with
    | [] => some true
    | [.bool b] => some b
    | _ => none

def int? (attrs : Attributes) (key : String) : Option Int :=
  (attrs.named key).findSome? fun a =>
    match a.params with
    | [.int n] => some n
    | _ => none

def text? (attrs : Attributes) (key : String) : Option String :=
  (attrs.named key).findSome? fun a =>
    match a.params with
    | [.text s] => some s
    | _ => none

/-- Attaches one more attribute. -/
def attach (attrs : Attributes) (a : Attribute) : Attributes := attrs ++ [a]

/-- Makes `a` the only attribute of its key, and the last of all. -/
def set (attrs : Attributes) (a : Attribute) : Attributes :=
  attrs.filter (·.key ≠ a.key) ++ [a]

end Attributes

end Verdict
