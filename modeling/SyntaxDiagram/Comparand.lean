import SyntaxDiagram.Element.Build
import SyntaxDiagram.Element.Equality

/-!
# Comparing anything with anything

Elements, entries and plain values are compared with `Comparand.equal`, and looked up among earlier
ones with `Register.add`, one at a time. Values of different sorts are never equal.
-/

namespace SyntaxDiagram

/-- Something to compare: an item, or an entry. -/
inductive Comparand where
  | item (value : Item)
  | entry (value : Entry)

namespace Comparand

/-- Whether two things are equal. -/
def equal : Comparand → Comparand → Except Fault Bool
  | .item (.element a), .item (.element b) => a.equal b
  | .item (.datum a), .item (.datum b) => .ok (a.eq b)
  | .entry a, .entry b => .ok (a.same b)
  | _, _ => .ok false

/-- Fails for a thing that cannot be looked up. -/
def checkKey : Comparand → Except Fault Unit
  | .item (.element element) => if element.isKey then .ok () else .error .incomparable
  | .item (.datum (.list _)) => .error .listAsKey
  | _ => .ok ()

end Comparand

/-! ### Looking things up -/

/-- The things seen so far, in order, each with the number of the first equal one. Numbers count
from zero, and only first ones are kept. -/
structure Register where
  firsts : List (Comparand × Nat)
  count : Nat

namespace Register

/-- The register of nothing. -/
def empty : Register :=
  ⟨[], 0⟩

/-- The number of the first of some numbered things that equals a given one. -/
def find? (value : Comparand) : List (Comparand × Nat) → Except Fault (Option Nat)
  | [] => .ok none
  | (other, number) :: rest => do
    if ← other.equal value then return some number else find? value rest

/-- Enters one more thing: the number of the first equal one, which is its own if it is new, and the
register afterwards. -/
def add (register : Register) (value : Comparand) : Except Fault (Nat × Register) := do
  value.checkKey
  match ← find? value register.firsts with
  | some number => return (number, { register with count := register.count + 1 })
  | none =>
    return (register.count,
      ⟨register.firsts ++ [(value, register.count)], register.count + 1⟩)

end Register

end SyntaxDiagram
