import KnightLang.Store
import KnightLang.Strings.Cache

namespace KnightLang

structure Acquisition where
  held : List Cell
  cell : Cell
  deriving DecidableEq, Repr

/-- Computations that are given the cells held so far, and record what they acquire, in order. -/
abbrev Watched (σ : Type) : Type → Type := ReaderT (List Cell) (StateT σ (StateM (List Acquisition)))

instance {σ : Type} : Guarded (Watched σ) where
  within cell x := fun held s record => x (cell :: held) s (record ++ [⟨held, cell⟩])

def Cell.IsMemo (cell : Cell) : Prop :=
  cell = .substrings ∨ cell = .longSubstrings ∨ cell = .concats ∨ cell = .integers

structure Acquisition.Orderly (a : Acquisition) : Prop where
  notMem : a.cell ∉ a.held
  nested : a.held = [] ∨ ∃ memo : Cell, memo.IsMemo ∧ a.held = [memo] ∧ a.cell = .pool

section

variable {σ α β : Type}

/-- One operation in three ways, while some cells are held: with locks it does not block and gives what
bare access gives, and so it does while it is watched, and all that it acquires is in order. -/
structure Accords (held : List Cell) (x : StateM σ α) (y : Locked σ α) (z : Watched σ α) : Prop where
  locked : ∀ s, y held s = some (x s)
  watched : ∀ s, ∃ more, (∀ a ∈ more, Acquisition.Orderly a) ∧
    ∀ record, z held s record = (x s, record ++ more)

namespace Accords

variable {held : List Cell} {x : StateM σ α} {y : Locked σ α} {z : Watched σ α}

theorem pure (a : α) : Accords held (pure a : StateM σ α) (pure a) (pure a) where
  locked _ := rfl
  watched s := ⟨[], nofun, fun record => by rw [List.append_nil]; rfl⟩

theorem modifyGet (f : σ → α × σ) :
    Accords held (modifyGet f : StateM σ α) (modifyGet f) (modifyGet f) where
  locked _ := rfl
  watched s := ⟨[], nofun, fun record => by rw [List.append_nil]; rfl⟩

theorem get : Accords held (getThe σ : StateM σ σ) (getThe σ) (getThe σ) :=
  modifyGet fun s => (s, s)

theorem modify (f : σ → σ) :
    Accords held (modifyThe σ f : StateM σ PUnit) (modifyThe σ f) (modifyThe σ f) :=
  modifyGet fun s => (PUnit.unit, f s)

theorem bind (h : Accords held x y z) {f : α → StateM σ β} {g : α → Locked σ β} {k : α → Watched σ β}
    (hf : ∀ a, Accords held (f a) (g a) (k a)) : Accords held (x >>= f) (y >>= g) (z >>= k) where
  locked s := by
    calc (y >>= g) held s
      _ = (y held s).bind fun p => g p.1 held p.2 := rfl
      _ = some ((x >>= f) s) := by
        rw [h.locked, Option.bind_some, (hf _).locked]
        rfl
  watched s := by
    obtain ⟨first, hfirst, hz⟩ := h.watched s
    obtain ⟨second, hsecond, hk⟩ := (hf (x s).1).watched (x s).2
    refine ⟨first ++ second, List.forall_mem_append.2 ⟨hfirst, hsecond⟩, fun record => ?_⟩
    calc (z >>= k) held s record
      _ = k (z held s record).1.1 held (z held s record).1.2 (z held s record).2 := rfl
      _ = ((x >>= f) s, record ++ (first ++ second)) := by
        rw [hz, hk, List.append_assoc]
        rfl

theorem map (h : Accords held x y z) (f : α → β) : Accords held (f <$> x) (f <$> y) (f <$> z) := by
  rw [map_eq_pure_bind, map_eq_pure_bind, map_eq_pure_bind]
  exact h.bind fun a => pure (f a)

theorem within {cell : Cell} (ha : Acquisition.Orderly ⟨held, cell⟩)
    (h : Accords (cell :: held) x y z) :
    Accords held (within cell x) (within cell y) (within cell z) where
  locked s := by
    calc (Guarded.within cell y : Locked σ α) held s
      _ = (if cell ∈ held then failure else y (cell :: held) : StateT σ Option α) s := rfl
      _ = some (x s) := by rw [if_neg ha.notMem, h.locked]
  watched s := by
    obtain ⟨more, hmore, hz⟩ := h.watched s
    refine ⟨⟨held, cell⟩ :: more, List.forall_mem_cons.2 ⟨ha, hmore⟩, fun record => ?_⟩
    calc (Guarded.within cell z : Watched σ α) held s record
      _ = z (cell :: held) s (record ++ [⟨held, cell⟩]) := rfl
      _ = (x s, record ++ ⟨held, cell⟩ :: more) := by
        rw [hz, List.append_assoc, List.singleton_append]

theorem forM {f : β → StateM σ PUnit} {g : β → Locked σ PUnit} {k : β → Watched σ PUnit}
    (h : ∀ b, Accords held (f b) (g b) (k b)) (bs : List β) :
    Accords held (bs.forM f) (bs.forM g) (bs.forM k) := by
  induction bs with
  | nil => exact pure _
  | cons b bs ih => exact (h b).bind fun _ => ih

end Accords

end

theorem Acquisition.orderly_first (cell : Cell) : Orderly ⟨[], cell⟩ := ⟨List.not_mem_nil, .inl rfl⟩

theorem Acquisition.orderly_pool {memo : Cell} (h : memo.IsMemo) : Orderly ⟨[memo], .pool⟩ where
  notMem := by
    rcases h with rfl | rfl | rfl | rfl <;> decide
  nested := .inr ⟨memo, h, rfl, rfl⟩

namespace Cache

def CanIntern (held : List Cell) : Prop := held = [] ∨ ∃ memo : Cell, memo.IsMemo ∧ held = [memo]

variable {held : List Cell}

theorem CanIntern.orderly (h : CanIntern held) : Acquisition.Orderly ⟨held, .pool⟩ := by
  rcases h with rfl | ⟨memo, hm, rfl⟩
  · exact Acquisition.orderly_first .pool
  · exact Acquisition.orderly_pool hm

theorem accords_unique (text : String) :
    Accords held (unique text : StateM Interner Str) (unique text) (unique text) :=
  .modifyGet _

theorem accords_intern (h : CanIntern held) (text : String) :
    Accords held (intern text : StateM Interner Str) (intern text) (intern text) :=
  .within h.orderly (.modifyGet _)

theorem accords_string (h : CanIntern held) (text : String) :
    Accords held (string text : StateM Interner Str) (string text) (string text) := by
  refine Accords.get.bind fun i => ?_
  dsimp only
  split
  · exact accords_unique text
  · exact accords_intern h text

theorem accords_ownedString (h : CanIntern held) (text : String) :
    Accords held (ownedString text : StateM Interner Str) (ownedString text) (ownedString text) := by
  refine Accords.get.bind fun i => ?_
  dsimp only
  split
  · exact accords_unique text
  · exact accords_string h text

theorem accords_remembered {memo : Cell} (hm : memo.IsMemo) (find : Cache → Option Str)
    (keep : Str → Cache → Cache) (text : String) :
    Accords [] (within memo (remembered find keep (string text)) : StateM Interner Str)
      (within memo (remembered find keep (string text)))
      (within memo (remembered find keep (string text))) := by
  refine .within (Acquisition.orderly_first memo) (Accords.get.bind fun i => ?_)
  cases find i.cache with
  | some str => exact .pure str
  | none =>
    exact (accords_string (.inr ⟨memo, hm, rfl⟩) text).bind fun str =>
      (Accords.modify _).bind fun _ => .pure str

theorem accords_substring (s : Str) (start stop : Nat) :
    Accords [] (substring s start stop : StateM Interner (Option Str)) (substring s start stop)
      (substring s start stop) := by
  unfold substring
  cases Text.slice? s.text start stop with
  | none => exact .pure none
  | some text =>
    cases s.tag? with
    | none => exact (accords_string (.inl rfl) text).map some
    | some tag =>
      dsimp only
      cases substringKey? tag start stop with
      | some key => exact (accords_remembered (.inl rfl) _ _ text).map some
      | none => exact (accords_remembered (.inr (.inl rfl)) _ _ text).map some

theorem accords_concat (left right : Str) :
    Accords [] (concat left right : StateM Interner Str) (concat left right) (concat left right) := by
  unfold concat
  cases left.tag? with
  | none => exact accords_string (.inl rfl) _
  | some l =>
    cases right.tag? with
    | none => exact accords_string (.inl rfl) _
    | some r => exact accords_remembered (.inr (.inr (.inl rfl))) _ _ _

theorem accords_intString (n : Int64) :
    Accords [] (intString n : StateM Interner Str) (intString n) (intString n) :=
  accords_remembered (.inr (.inr (.inr rfl))) _ _ _

theorem accords_warm : Accords [] (warm : StateM Interner Unit) warm warm :=
  Accords.get.bind fun _ => .forM (fun n => (accords_intString n).map _) _

theorem accords_interned : Accords [] (interned : StateM Interner Nat) interned interned :=
  .within (Acquisition.orderly_first .pool) (Accords.get.bind fun _ => .pure _)

end Cache

namespace Store

theorem accords_lookup (name : String) :
    Accords [] (lookup name : StateM Store Variable) (lookup name) (lookup name) :=
  .within (Acquisition.orderly_first .names) (.modifyGet _)

theorem accords_read? (v : Variable) :
    Accords [] (read? v : StateM Store (Option Value)) (read? v) (read? v) :=
  .within (Acquisition.orderly_first _) (Accords.get.bind fun _ => .pure _)

theorem accords_write (v : Variable) (value : Value) :
    Accords [] (write v value : StateM Store Unit) (write v value) (write v value) :=
  .within (Acquisition.orderly_first _) (.modify _)

theorem accords_program? (source : Str) :
    Accords [] (program? source : StateM Store (Option Program)) (program? source)
      (program? source) :=
  .within (Acquisition.orderly_first .programs) (Accords.get.bind fun _ => .pure _)

theorem accords_insertProgram (source : Str) (p : Program) :
    Accords [] (insertProgram source p : StateM Store Unit) (insertProgram source p)
      (insertProgram source p) :=
  .within (Acquisition.orderly_first .programs) (.modify _)

end Store

end KnightLang
