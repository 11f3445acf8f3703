import KnightLang.Text.Utf8

namespace KnightLang

/-- Interned handles carry a tag and the number of the pool that gave it; every other handle has an
address of its own. -/
inductive Label
  | interned (tag pool : UInt32)
  | unique (address : Nat)
  deriving DecidableEq, Repr

inductive Identity
  | tag (n : UInt32)
  | address (n : Nat)
  deriving DecidableEq, Repr

def Identity.key : Identity → Nat
  | tag n => 2 * n.toNat
  | address n => 2 * n + 1

theorem Identity.key_inj {i j : Identity} : i.key = j.key ↔ i = j := by
  constructor
  · intro h
    cases i with
    | tag a =>
      cases j with
      | tag b => rw [UInt32.toNat_inj.1 (show a.toNat = b.toNat by simp only [key] at h; omega)]
      | address b => simp only [key] at h; omega
    | address a =>
      cases j with
      | tag b => simp only [key] at h; omega
      | address b => rw [show a = b by simp only [key] at h; omega]
  · rintro rfl; rfl

structure Str where
  text : String
  label : Label
  deriving DecidableEq, Repr

namespace Str

def tag? (s : Str) : Option UInt32 :=
  match s.label with
  | .interned tag _ => some tag
  | .unique _ => none

def identity (s : Str) : Identity :=
  match s.label with
  | .interned tag _ => .tag tag
  | .unique address => .address address

def same (s t : Str) : Bool := s.identity = t.identity

/-- Equal tags mean one text, and different tags of one pool mean two; only otherwise are the texts
compared. -/
def equal (s t : Str) : Bool :=
  match s.label, t.label with
  | .interned a p, .interned b q => if a = b then true else if p = q then false else s.text = t.text
  | _, _ => s.text = t.text

def length (s : Str) : Nat := s.text.utf8ByteSize

def isEmpty (s : Str) : Bool := s.text.isEmpty

end Str

end KnightLang
