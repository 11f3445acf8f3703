import KnightLang.Strings.Guard
import KnightLang.Text.Decimal
import KnightLang.Tree.Basic
import Std.Data.TreeMap

namespace KnightLang

open Std (TreeMap)

structure Store where
  names : TreeMap String Nat := ∅
  slots : Array (Option Value) := #[]
  programs : TreeMap Nat (Str × Program) := ∅

namespace Store

def empty : Store := {}

def size (s : Store) : Nat := s.names.size

def programCount (s : Store) : Nat := s.programs.size

def summary (s : Store) : String :=
  "Globals \x7b vars: " ++ Decimal.ofNat s.size ++ ", programs: " ++ Decimal.ofNat s.programCount ++
    " \x7d"

section

variable {m : Type → Type} [Monad m] [MonadStateOf Store m] [Guarded m]

@[inline] def lookup (name : String) : m Variable :=
  within .names <| modifyGet fun s =>
    match s.names[name]? with
    | some slot => (⟨name, slot⟩, s)
    | none =>
      let slot := s.slots.size
      (⟨name, slot⟩, { s with names := s.names.insert name slot, slots := s.slots.push none })

@[inline] def read? (v : Variable) : m (Option Value) :=
  within (.slot v.slot) do return (← getThe Store).slots[v.slot]?.join

@[inline] def write (v : Variable) (value : Value) : m Unit :=
  within (.slot v.slot) <| modifyThe Store fun ⟨names, slots, programs⟩ =>
    ⟨names, slots.setIfInBounds v.slot (some value), programs⟩

@[inline] def program? (source : Str) : m (Option Program) :=
  within .programs do return (← getThe Store).programs[source.identity.key]?.map (·.2)

@[inline] def insertProgram (source : Str) (p : Program) : m Unit :=
  within .programs <| modifyThe Store fun ⟨names, slots, programs⟩ =>
    ⟨names, slots, programs.insert source.identity.key (source, p)⟩

end

end Store

end KnightLang
