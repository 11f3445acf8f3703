import KnightLang.Proofs.Lockstep.Running

/-!
What a process has done before: caches were made and used, and programs were parsed and run on stores,
with the cache that all programs share. Main statement: whatever it was, the caches are sound. Each
program is compared with itself for that, so that nothing about programs is proved again.
-/
namespace KnightLang

def Pairing.diagonal (E : Set Str) : Pairing := fun a b => a = b ∧ a ∈ E

namespace Pairing

variable {E E' : Set Str}

theorem diagonal_mono (h : E ⊆ E') : diagonal E ≤ diagonal E' := fun _ _ hab => ⟨hab.1, h hab.2⟩

theorem faithful_diagonal : (diagonal E).Faithful where
  text := by
    rintro a b ⟨rfl, -⟩
    rfl
  identity := by
    rintro a b a' b' ⟨rfl, -⟩ ⟨rfl, -⟩
    rfl
  equal := by
    rintro a b a' b' ⟨rfl, -⟩ ⟨rfl, -⟩
    rfl

end Pairing

namespace Request.Matches

variable {w : Pairing} {E : Set Str} {r r' : Request Str}

theorem eq_of_le (h : r.Matches w r') (hw : w ≤ .diagonal E) : r = r' := by
  cases h with
  | part h start stop => rw [(hw _ _ h).1]
  | join h h' => rw [(hw _ _ h).1, (hw _ _ h').1]
  | _ => rfl

theorem within_of_le (h : r.Matches w r') (hw : w ≤ .diagonal E) : r.Within E := by
  cases h with
  | part h start stop => exact (hw _ _ h).2
  | join h h' => exact ⟨(hw _ _ h).2, (hw _ _ h').2⟩
  | _ => trivial

end Request.Matches

namespace Caches

structure Hosts (s : Caches) (k : Nat) (i : Interner) (E : Set Str) : Prop where
  sound : (s.put k i).Sound E
  member : (s.put k i).members[k]? = some i.cache
  options : i.cache.options = {}

namespace Hosts

variable {s : Caches} {k : Nat} {i j : Interner} {E E' : Set Str}

theorem of_member {c : Cache} (h : s.Sound E) (hc : s.members[k]? = some c) (ho : c.options = {}) :
    s.Hosts k ⟨s.supply, c⟩ E := by
  have hput : s.put k ⟨s.supply, c⟩ = s := by
    obtain ⟨hk, rfl⟩ := List.getElem?_eq_some_iff.1 hc
    simp only [put, List.set_getElem_self]
  refine ⟨?_, ?_, ho⟩
  · rwa [hput]
  · rwa [hput]

theorem evolve (h : s.Hosts k i E) (hj : i.Evolves E j E') : s.Hosts k j E' := by
  have hput : (s.put k i).put k j = s.put k j := by
    simp only [put, List.set_set]
  refine ⟨?_, ?_, hj.grows.options.trans h.options⟩
  · rw [← hput]
    exact h.sound.put h.member hj
  · rw [← hput]
    exact getElem?_put_self h.member

theorem interner (h : s.Hosts k i E) : i.Sound E := h.sound.interner h.member

theorem answer (h : s.Hosts k i E) {r : Request Str} (hr : r.Within E) :
    ∃ E', E ⊆ E' ∧ s.Hosts k (r.answer i).2 E' ∧ ∀ a ∈ (r.answer i).1, a ∈ E' := by
  have hout := Request.answer_outcome h.interner hr
  generalize r.answer i = x at hout ⊢
  obtain ⟨a?, j⟩ := x
  dsimp only at hout ⊢
  cases hout with
  | none => exact ⟨E, Set.Subset.rfl, h, nofun⟩
  | @special which =>
    refine ⟨E, Set.Subset.rfl, h, ?_⟩
    rintro a ⟨⟩
    exact (h.interner.cache.special which).mem
  | @made text a j _ _ hm hj =>
    have hev := hm.evolves h.interner hj
    refine ⟨_, hev.subset, h.evolve hev, ?_⟩
    rintro b ⟨⟩
    exact .inl rfl

end Hosts

end Caches

def Link.itself (s : Caches) (k : Nat) : Link where
  strict := False
  like w i j := i = j ∧ ∃ E, s.Hosts k i E ∧ w ≤ .diagonal E

theorem Link.enough_itself {s : Caches} {k : Nat} {t : Supply} : (itself s k).Enough t := nofun

theorem Link.lawful_itself (s : Caches) (k : Nat) : (itself s k).Lawful where
  faithful := by
    rintro w i j ⟨-, E, -, hw⟩
    exact Pairing.faithful_diagonal.anti hw
  options := by
    rintro w i j ⟨rfl, -⟩
    rfl
  answer {w r r'} d hr := by
    rintro w₁ i j hw ⟨rfl, E, hi, hE⟩ - -
    have hr₁ := hr.mono hw
    obtain rfl := hr₁.eq_of_le hE
    obtain ⟨E', hEE', hj, ha⟩ := hi.answer (hr₁.within_of_le hE)
    refine ⟨.diagonal E', hE.trans (Pairing.diagonal_mono hEE'), ⟨rfl, E', hj, le_rfl⟩, ?_⟩
    cases h : (r.answer i).1 with
    | none => exact .none
    | some a => exact .some ⟨rfl, ha a h⟩

def Store.assign (name : String) (value : Value) : StateM Store Unit := do
  Store.write (← Store.lookup name) value

theorem Store.assign_eq (name : String) (value : Value) (s : Store) : Store.assign name value s =
    (Store.write ((Store.lookup name : StateM Store Variable) s).1 value : StateM Store Unit)
      ((Store.lookup name : StateM Store Variable) s).2 := rfl

theorem Store.Matches.assign {d : Int} {w : Pairing} {s t : Store} (h : s.Matches d w t)
    (name : String) {u v : Value} (hv : u.Matches d w v) :
    Store.Matches d w (Store.assign name u s).2 (Store.assign name v t).2 := by
  obtain ⟨hm, he⟩ := h.lookup name
  rw [Store.assign_eq, Store.assign_eq, he]
  exact hm.write _ hv

/-- What a process has made: caches, among them in some place the one that programs share; stores;
programs, each with the place of its store; and the number of the next node. -/
structure Past where
  caches : Caches := {}
  shared? : Option Nat := none
  stores : List Store := []
  programs : List (Nat × Program) := []
  nextNode : Nat := 0

inductive Deed
  | use (use : Use)
  | share
  | openStore
  | assign (store : Nat) (name : String) (handle : Nat)
  | parse (store : Nat) (source : String)
  | execute (program : Nat) (around : Surroundings) (console : Console) (fuel : Nat)

namespace Past

def share (p : Past) : Past :=
  match p.shared? with
  | some _ => p
  | none =>
    { p with caches := (Use.create {}).step p.caches, shared? := some p.caches.members.length }

def strings (p : Past) : Interner :=
  match p.shared?.bind (p.caches.members[·]?) with
  | some c => ⟨p.caches.supply, c⟩
  | none => .create {} p.caches.supply

def workspace (p : Past) (store : Store) : Workspace := ⟨p.strings, store, p.nextNode⟩

def fresh (p : Past) : Workspace := p.workspace .empty

def leave (p : Past) (store : Nat) (ws : Workspace) : Past :=
  { p with
    caches := match p.shared? with
      | some k => p.caches.put k ws.strings
      | none => p.caches
    stores := p.stores.set store ws.store
    nextNode := ws.nextNode }

def program? (p : Past) (n : Nat) : Option (Nat × Store × Program) := do
  let (k, q) ← p.programs[n]?
  let store ← p.stores[k]?
  return (k, store, q)

def keep (p : Past) (store : Nat) : Except CompileError Program → Past
  | .ok q => { p with programs := p.programs ++ [(store, q)] }
  | .error _ => p

def handOut (p : Past) : Option (Except Stop Value) → Past
  | some (.ok (.str a)) => { p with caches := { p.caches with handles := p.caches.handles ++ [a] } }
  | _ => p

theorem stores_share (p : Past) : p.share.stores = p.stores := by
  unfold share
  split <;> rfl

theorem programs_share (p : Past) : p.share.programs = p.programs := by
  unfold share
  split <;> rfl

theorem getElem?_of_program? {p : Past} {n k : Nat} {s : Store} {q : Program}
    (h : p.program? n = some (k, s, q)) : p.programs[n]? = some (k, q) ∧ p.stores[k]? = some s := by
  simp only [program?, Option.bind_eq_bind, Option.bind_eq_some_iff] at h
  obtain ⟨⟨k', q'⟩, hq, s', hs, ⟨⟩⟩ := h
  exact ⟨hq, hs⟩

theorem exists_shared?_share (p : Past) : ∃ k, p.share.shared? = some k := by
  unfold share
  split
  · rename_i k hk
    exact ⟨k, hk⟩
  · exact ⟨_, rfl⟩

end Past

/-- What becomes of a process. Stores, handles and programs that do not exist change nothing. -/
def Deed.step (p : Past) : Deed → Past
  | .use u => { p with caches := u.step p.caches }
  | .share => p.share
  | .openStore => { p with stores := p.stores ++ [.empty] }
  | .assign k name handle =>
    match p.stores[k]?, p.caches.handles[handle]? with
    | some store, some a =>
      { p with stores := p.stores.set k (Store.assign name (.str a) store).2 }
    | _, _ => p
  | .parse k source =>
    match p.stores[k]? with
    | some store =>
      let (parsed, ws) := Program.parse source (p.share.workspace store)
      (p.share.leave k ws).keep k parsed
    | none => p
  | .execute n around console fuel =>
    match p.program? n with
    | some (k, store, q) =>
      let (result, s) := q.advance around fuel ⟨p.share.workspace store, console⟩
      (p.share.leave k s.workspace).handOut result
    | none => p

namespace Past

def run (deeds : List Deed) : Past := deeds.foldl Deed.step {}

structure Sound (p : Past) (E : Set Str) : Prop where
  caches : p.caches.Sound E
  shared {k : Nat} : p.shared? = some k → ∃ c, p.caches.members[k]? = some c ∧ c.options = {}
  store {s : Store} : s ∈ p.stores → s.Matches 0 (.diagonal E) s
  program {k : Nat} {q : Program} : (k, q) ∈ p.programs → q.Matches 0 (.diagonal E) q

theorem matches_empty {d : Int} {w : Pairing} : Store.empty.Matches d w .empty where
  names := rfl
  size := rfl
  slots _ := .none
  program h := by simp [Store.empty] at h
  program' h := by simp [Store.empty] at h
  count := rfl

theorem sound_empty : Sound {} ∅ where
  caches := Caches.sound_empty
  shared := nofun
  store := nofun
  program := nofun

namespace Sound

variable {p : Past} {E : Set Str} {k : Nat}

theorem evolve (h : p.Sound E) {caches : Caches} {E' : Set Str} (hc : p.caches.Evolves E caches E') :
    { p with caches := caches }.Sound E' where
  caches := hc.sound
  shared hk := by
    obtain ⟨c, hm, ho⟩ := h.shared hk
    obtain ⟨c', hm', ho', -⟩ := hc.member hm
    exact ⟨c', hm', ho'.trans ho⟩
  store hs := (h.store hs).mono (Pairing.diagonal_mono hc.subset)
  program hq := Node.Matches.mono (Pairing.diagonal_mono hc.subset) (h.program hq)

theorem share_evolves (h : p.Sound E) :
    ∃ E', p.caches.Evolves E p.share.caches E' ∧ p.share.Sound E' := by
  unfold Past.share
  split
  · exact ⟨E, .refl h.caches, h⟩
  · obtain ⟨E', hc⟩ := h.caches.create {}
    refine ⟨E', hc, { h.evolve hc with shared := ?_ }⟩
    rintro k ⟨⟩
    exact ⟨(Cache.create {} p.caches.supply).1, by simp [Use.step], rfl⟩

theorem share (h : p.Sound E) : ∃ E', p.share.Sound E' := by
  obtain ⟨E', -, h'⟩ := h.share_evolves
  exact ⟨E', h'⟩

theorem strings_eq (h : p.Sound E) (hk : p.shared? = some k) :
    ∃ c, p.caches.members[k]? = some c ∧ c.options = {} ∧ p.strings = ⟨p.caches.supply, c⟩ := by
  obtain ⟨c, hc, ho⟩ := h.shared hk
  refine ⟨c, hc, ho, ?_⟩
  simp only [Past.strings, hk, Option.bind_some, hc]

theorem hosts (h : p.Sound E) (hk : p.shared? = some k) : p.caches.Hosts k p.strings E := by
  obtain ⟨c, hc, ho, hs⟩ := h.strings_eq hk
  rw [hs]
  exact .of_member h.caches hc ho

theorem strings (h : p.Sound E) :
    ∃ E', p.strings.Sound E' ∧ p.strings.cache.options = {} := by
  cases hk : p.shared? with
  | some k => exact ⟨E, (h.hosts hk).interner, (h.hosts hk).options⟩
  | none =>
    obtain ⟨E', hc⟩ := Cache.create_created {} h.caches.covers
    simp only [Past.strings, hk, Option.bind_none]
    exact ⟨E', ⟨hc.covers, hc.sound⟩, hc.options_eq⟩

theorem alike (h : p.Sound E) (hk : p.shared? = some k) {s : Store}
    (hs : s.Matches 0 (.diagonal E) s) : (p.workspace s).Alike (.itself p.caches k) 0 (.diagonal E)
      (p.workspace s) where
  strings := ⟨rfl, E, h.hosts hk, le_rfl⟩
  store := hs
  nextNode := (Int.add_zero _).symm

theorem leave (h : p.Sound E) (hk : p.shared? = some k) {w : Pairing} (hw : .diagonal E ≤ w)
    {ws : Workspace} (hws : ws.Alike (.itself p.caches k) 0 w ws) (n : Nat) :
    ∃ E', w ≤ .diagonal E' ∧ (p.leave n ws).Sound E' := by
  obtain ⟨-, E', hi, hE'⟩ := hws.strings
  refine ⟨E', hE', ?_, ?_, ?_, ?_⟩
  · simp only [Past.leave, hk]
    exact hi.sound
  · intro l hl
    obtain rfl := Option.some.inj (hk.symm.trans hl)
    simp only [Past.leave, hk]
    exact ⟨_, hi.member, hi.options⟩
  · intro s hs
    rcases List.mem_or_eq_of_mem_set hs with hs | rfl
    · exact (h.store hs).mono (hw.trans hE')
    · exact hws.store.mono hE'
  · intro l q hq
    exact Node.Matches.mono (hw.trans hE') (h.program hq)

theorem keep (h : p.Sound E) {parsed : Except CompileError Program}
    (hq : Results (Program.Matches 0) (.diagonal E) parsed parsed) (n : Nat) :
    (p.keep n parsed).Sound E := by
  cases hq with
  | error e => exact h
  | ok hq =>
    refine { h with program := fun hr => ?_ }
    rcases List.mem_append.1 hr with hr | hr
    · exact h.program hr
    · obtain ⟨-, rfl⟩ := Prod.mk.inj (List.mem_singleton.1 hr)
      exact hq

theorem handOut (h : p.Sound E) {result : Option (Except Stop Value)}
    (hr : Options (Results (Value.Matches 0)) (.diagonal E) result result) :
    (p.handOut result).Sound E := by
  cases hr with
  | none => exact h
  | some hr =>
    cases hr with
    | error stop => exact h
    | ok hv =>
      cases hv with
      | str ha => exact h.evolve ((Caches.Evolves.refl h.caches).handOut (by simpa using ha.2))
      | _ => exact h

theorem store_get (h : p.Sound E) {s : Store} (hs : p.stores[k]? = some s) :
    s.Matches 0 (.diagonal E) s := h.store (List.mem_of_getElem? hs)

theorem use (h : p.Sound E) (u : Use) : ∃ E', ((Deed.use u).step p).Sound E' := by
  obtain ⟨E', hu⟩ := h.caches.step u
  exact ⟨E', h.evolve hu⟩

theorem openStore (h : p.Sound E) : (Deed.openStore.step p).Sound E :=
  { h with
    store := fun hs => by
      rcases List.mem_append.1 hs with hs | hs
      · exact h.store hs
      · obtain rfl := List.mem_singleton.1 hs
        exact matches_empty }

theorem assign (h : p.Sound E) (k : Nat) (name : String) (n : Nat) :
    ((Deed.assign k name n).step p).Sound E := by
  simp only [Deed.step]
  split
  · rename_i s a hs ha
    have hm := (h.store_get hs).assign name
      (.str ⟨rfl, h.caches.handles (List.mem_of_getElem? ha)⟩ : (Value.str a).Matches 0 _ (.str a))
    refine { h with store := fun ht => ?_ }
    rcases List.mem_or_eq_of_mem_set ht with ht | rfl
    · exact h.store ht
    · exact hm
  · exact h

theorem parse (h : p.Sound E) (k : Nat) (source : String) :
    ∃ E', ((Deed.parse k source).step p).Sound E' := by
  simp only [Deed.step]
  split
  · rename_i s hs
    obtain ⟨E₁, h₁⟩ := h.share
    obtain ⟨g, hg⟩ := p.exists_shared?_share
    have hws := h₁.alike hg (h₁.store_get (by rwa [stores_share]))
    obtain ⟨w, hw, hl, hr⟩ := Program.sim_parse (Link.lawful_itself _ g) source le_rfl hws
      Link.enough_itself Link.enough_itself
    obtain ⟨E₂, hE₂, h₂⟩ := h₁.leave hg hw hl k
    exact ⟨E₂, h₂.keep (lasting_program.results hE₂ hr) k⟩
  · exact ⟨E, h⟩

theorem execute (h : p.Sound E) (n : Nat) (around : Surroundings) (console : Console) (fuel : Nat) :
    ∃ E', ((Deed.execute n around console fuel).step p).Sound E' := by
  simp only [Deed.step]
  split
  · rename_i k s q hn
    obtain ⟨hq, hs⟩ := getElem?_of_program? hn
    obtain ⟨E₁, h₁⟩ := h.share
    obtain ⟨g, hg⟩ := p.exists_shared?_share
    have hws := h₁.alike hg (h₁.store_get (by rwa [stores_share]))
    have hq₁ := h₁.program (List.mem_of_getElem? (by rwa [programs_share]))
    obtain ⟨w, hw, hl, hr⟩ := Program.advance_alike (Link.lawful_itself _ g) around fuel hq₁
      (s := ⟨_, console⟩) (t := ⟨_, console⟩) ⟨hws, rfl⟩ Link.enough_itself Link.enough_itself
    obtain ⟨E₂, hE₂, h₂⟩ := h₁.leave hg hw hl.workspace k
    exact ⟨E₂, h₂.handOut (lasting_value.results.options hE₂ hr)⟩
  · exact ⟨E, h⟩

theorem step (h : p.Sound E) (deed : Deed) : ∃ E', (deed.step p).Sound E' := by
  cases deed with
  | use u => exact h.use u
  | share => exact h.share
  | openStore => exact ⟨E, h.openStore⟩
  | assign k name n => exact ⟨E, h.assign k name n⟩
  | parse k source => exact h.parse k source
  | execute n around console fuel => exact h.execute n around console fuel

theorem foldl (h : p.Sound E) (deeds : List Deed) : ∃ E', (deeds.foldl Deed.step p).Sound E' := by
  induction deeds generalizing p E with
  | nil => exact ⟨E, h⟩
  | cons deed deeds ih =>
    obtain ⟨E', hs⟩ := h.step deed
    exact ih hs

end Sound

theorem sound_run (deeds : List Deed) : ∃ E, (run deeds).Sound E := sound_empty.foldl deeds

end Past

end KnightLang
