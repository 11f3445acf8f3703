import KnightLang.Proofs.Console.Effects
import KnightLang.Proofs.Execution.Cells
import KnightLang.Proofs.Execution.Reuse
import KnightLang.Proofs.Rendering.Determination

namespace KnightLang

open Std (TreeMap)
open Workspace

namespace Token

def name? : Token → Option String
  | .name spelling => some spelling
  | _ => none

def names (ts : List Token) : List String := ts.filterMap name?

theorem names_cons (t : Token) (ts : List Token) : names (t :: ts) = t.name?.toList ++ names ts := by
  unfold names
  cases h : t.name? with
  | none => rw [List.filterMap_cons_none h, Option.toList_none, List.nil_append]
  | some name => rw [List.filterMap_cons_some h, Option.toList_some, List.singleton_append]

theorem names_append (ts us : List Token) : names (ts ++ us) = names ts ++ names us :=
  List.filterMap_append

theorem mem_names {ts : List Token} {name : String} : name ∈ names ts ↔ .name name ∈ ts := by
  unfold names
  rw [List.mem_filterMap]
  constructor
  · rintro ⟨t, ht, hn⟩
    cases t with
    | name spelling =>
      obtain rfl := Option.some.inj hn
      exact ht
    | _ => cases hn
  · intro h
    exact ⟨_, h, rfl⟩

end Token

namespace Store

/-- From one store to another that has some more names, each with an unset slot of its own. All else is
as it was. -/
structure Gains (s : Store) (N : String → Prop) (t : Store) : Prop where
  kept {name : String} {slot : Nat} : s.names[name]? = some slot → t.names[name]? = some slot
  mem {name : String} : name ∈ t.names ↔ name ∈ s.names ∨ N name
  fresh {name : String} {slot : Nat} : name ∉ s.names → t.names[name]? = some slot →
    s.slots.size ≤ slot ∧ t.slots[slot]? = some none
  apart {a b : String} {slot : Nat} : a ∉ s.names → b ∉ s.names → t.names[a]? = some slot →
    t.names[b]? = some slot → a = b
  slots : ∃ count, t.slots = s.slots ++ Array.replicate count none
  programs : t.programs = s.programs

variable {s t u : Store} {N N' : String → Prop} {name : String}

theorem exists_slot (h : name ∈ s.names) : ∃ slot, s.names[name]? = some slot := by
  rw [TreeMap.mem_iff_isSome_getElem?] at h
  exact Option.isSome_iff_exists.1 h

theorem mem_of_slot {slot : Nat} (h : s.names[name]? = some slot) : name ∈ s.names := by
  rw [TreeMap.mem_iff_isSome_getElem?, h]
  rfl

theorem Gains.refl (s : Store) : s.Gains (fun _ => False) s where
  kept := id
  mem := by simp
  fresh hn hs := absurd (mem_of_slot hs) hn
  apart hn _ hs _ := absurd (mem_of_slot hs) hn
  slots := ⟨0, by simp⟩
  programs := rfl

theorem Gains.size_le (h : s.Gains N t) : s.slots.size ≤ t.slots.size := by
  obtain ⟨count, hc⟩ := h.slots
  rw [hc, Array.size_append]
  omega

theorem Gains.getElem?_slots (h : s.Gains N t) {k : Nat} (hk : k < s.slots.size) :
    t.slots[k]? = s.slots[k]? := by
  obtain ⟨count, hc⟩ := h.slots
  rw [hc, Array.getElem?_append_left hk]

theorem Gains.trans (h : s.Gains N t) (h' : t.Gains N' u) :
    s.Gains (fun name => N name ∨ N' name) u := by
  -- a name that is new in the end is new after the first part, or has a slot of the second
  have hsplit {name : String} {slot : Nat} (hn : name ∉ s.names) (hu : u.names[name]? = some slot) :
      (t.names[name]? = some slot ∧ slot < t.slots.size ∧ s.slots.size ≤ slot ∧
        t.slots[slot]? = some none) ∨ (name ∉ t.names ∧ t.slots.size ≤ slot) := by
    by_cases ht : name ∈ t.names
    · obtain ⟨k, hk⟩ := exists_slot ht
      obtain rfl := Option.some.inj ((h'.kept hk).symm.trans hu)
      obtain ⟨hle, hnone⟩ := h.fresh hn hk
      have hlt : k < t.slots.size := by
        by_contra hge
        rw [Array.getElem?_eq_none (by omega)] at hnone
        cases hnone
      exact .inl ⟨hk, hlt, hle, hnone⟩
    · exact .inr ⟨ht, (h'.fresh ht hu).1⟩
  constructor
  · exact fun hn => h'.kept (h.kept hn)
  · intro name
    rw [h'.mem, h.mem, or_assoc]
  · intro name slot hn hu
    rcases hsplit hn hu with ⟨-, hlt, hle, hnone⟩ | ⟨ht, hle⟩
    · rw [h'.getElem?_slots hlt]
      exact ⟨hle, hnone⟩
    · have hsize := h.size_le
      exact ⟨by omega, (h'.fresh ht hu).2⟩
  · intro a b slot ha hb hua hub
    rcases hsplit ha hua with ⟨hta, hlt, -⟩ | ⟨hta, hle⟩
    · rcases hsplit hb hub with ⟨htb, -⟩ | ⟨-, hle⟩
      · exact h.apart ha hb hta htb
      · omega
    · rcases hsplit hb hub with ⟨-, hlt, -⟩ | ⟨htb, -⟩
      · omega
      · exact h'.apart hta htb hua hub
  · obtain ⟨count, hc⟩ := h.slots
    obtain ⟨count', hc'⟩ := h'.slots
    refine ⟨count + count', ?_⟩
    rw [hc', hc, Array.append_assoc, Array.replicate_append_replicate]
  · exact h'.programs.trans h.programs

theorem Gains.of_iff (h : s.Gains N t) (hN : ∀ name, N name ↔ N' name) : s.Gains N' t := by
  obtain rfl : N = N' := funext fun name => propext (hN name)
  exact h

theorem gains_lookup (name : String) (s : Store) :
    s.Gains (· = name) ((Store.lookup name : StateM Store Variable) s).2 := by
  have hmem {other : String} : other ∈ ((Store.lookup name : StateM Store Variable) s).2.names ↔
      other ∈ s.names ∨ other = name := by
    rw [mem_lookup, or_comm]
  cases hn : s.names[name]? with
  | some slot =>
    rw [s.lookup_of_some name hn] at hmem ⊢
    exact { Gains.refl s with mem := hmem }
  | none =>
    rw [lookup_eq, hn] at hmem ⊢
    have hnames {other : String} {slot : Nat} (ho : other ∉ s.names)
        (hs : (s.names.insert name s.slots.size)[other]? = some slot) :
        other = name ∧ slot = s.slots.size := by
      rw [TreeMap.getElem?_insert] at hs
      split at hs
      · rename_i heq
        have heq : name = other := by simpa using heq
        exact ⟨heq.symm, (Option.some.inj hs).symm⟩
      · exact absurd (mem_of_slot hs) ho
    constructor
    · intro other slot ho
      have hne : name ≠ other := by
        rintro rfl
        simp [hn] at ho
      rwa [TreeMap.getElem?_insert, if_neg (by simpa using hne)]
    · exact hmem
    · intro other slot ho hs
      obtain ⟨-, rfl⟩ := hnames ho hs
      exact ⟨le_rfl, by simp⟩
    · intro a b slot ha hb hsa hsb
      rw [(hnames ha hsa).1, (hnames hb hsb).1]
    · exact ⟨1, Array.push_eq_append⟩
    · rfl

theorem lookupAll_append (s : Store) (names more : List String) :
    s.lookupAll (names ++ more) = (s.lookupAll names).lookupAll more :=
  List.foldl_append

theorem gains_lookupAll (s : Store) (names : List String) :
    s.Gains (· ∈ names) (s.lookupAll names) := by
  induction names generalizing s with
  | nil => exact (Gains.refl s).of_iff (by simp)
  | cons name names ih =>
    have h := (gains_lookup name s).trans (ih _)
    exact h.of_iff fun other => List.mem_cons.symm

theorem lookupAll_of_mem {names : List String} (h : ∀ name ∈ names, name ∈ s.names) :
    s.lookupAll names = s := by
  induction names with
  | nil => rfl
  | cons name names ih =>
    rw [List.forall_mem_cons] at h
    obtain ⟨slot, hs⟩ := exists_slot h.1
    have hname : (s.lookupAll (name :: names)) =
        ((Store.lookup name : StateM Store Variable) s).2.lookupAll names := rfl
    rw [hname, s.lookup_of_some name hs]
    exact ih h.2

end Store

namespace Phrase

theorem lookupAll_buildAll {ps : List Phrase}
    (h : ∀ p ∈ ps, ∀ ws, (p.build ws).2.store = ws.store.lookupAll (Token.names p.tokens))
    (ws : Workspace) :
    (buildAll ps ws).2.store = ws.store.lookupAll (Token.names (tokensAll ps)) := by
  induction ps generalizing ws with
  | nil => rfl
  | cons p ps ih =>
    rw [List.forall_mem_cons] at h
    have hps := ih h.2 (p.build ws).2
    rw [tokensAll, Token.names_append, Store.lookupAll_append, ← h.1]
    exact hps

theorem lookupAll_build (p : Phrase) (ws : Workspace) :
    (p.build ws).2.store = ws.store.lookupAll (Token.names p.tokens) := by
  induction p generalizing ws with
  | unary op p ih =>
    rw [tokens, Token.names_cons]
    exact ih ws
  | binary op p q ihp ihq =>
    rw [tokens, Token.names_cons, Token.names_append]
    have hq := ihq (p.build ws).2
    rw [ihp ws, ← Store.lookupAll_append] at hq
    exact hq
  | call word builtin ps ih =>
    rw [tokens, Token.names_cons]
    exact lookupAll_buildAll ih ws
  | _ => rfl

end Phrase

namespace Parse

theorem lookupAll_start (l : Lexeme) (ws : Workspace) :
    (start l ws).2.store = ws.store.lookupAll l.token.name?.toList := by
  unfold start
  cases l.token with
  | integer digits =>
    dsimp only
    split <;> rfl
  | word spelling =>
    cases hw : Builtin.ofWord? spelling with
    | none =>
      simp only [hw]
      rfl
    | some builtin =>
      cases ha : builtin.arity <;> simp only [hw, ha] <;> rfl
  | _ => rfl

theorem store_deliver (n : Node) (stack : List Pending) (ws : Workspace) :
    (deliver n stack ws).2.store = ws.store := by
  obtain ⟨names, hn, hs⟩ := looksUp_deliver (N := fun _ => False) n stack ws
  obtain rfl : names = [] := List.eq_nil_iff_forall_not_mem.2 hn
  exact hs

theorem lookupAll_finish {length : Nat} {before rest : List Lexeme}
    (hb : ∀ l ∈ before, l.fault? = none)
    (hr : rest = [] ∨ ∃ l after e, rest = l :: after ∧ l.fault? = some e) {stack : List Pending}
    {ws ws' : Workspace} {e : CompileError}
    (h : finish length stack (before ++ rest) ws = (.error e, ws')) :
    ws'.store = ws.store.lookupAll (Token.names (before.map Lexeme.token)) := by
  induction before generalizing stack ws with
  | nil =>
    rcases hr with rfl | ⟨l, after, e', rfl, hl⟩
    · cases stack <;> cases h <;> rfl
    · rw [List.nil_append, finish_cons, start_of_fault hl] at h
      cases h
      rfl
  | cons l before ih =>
    rw [List.forall_mem_cons] at hb
    rw [List.map_cons, Token.names_cons, Store.lookupAll_append, ← lookupAll_start]
    rw [List.cons_append, finish_cons] at h
    have hl {e : CompileError} : (start l ws).1 ≠ .error e := by
      intro he
      have hfault := fault_of_start he
      simp [hb.1] at hfault
    simp only [bind, StateT.bind] at h
    generalize start l ws = started at h hl ⊢
    obtain ⟨e' | pending | n, ws₁⟩ := started
    · exact absurd rfl hl
    · exact ih hb.2 h
    · simp only [settle, bind, StateT.bind] at h
      have hd := store_deliver n stack ws₁
      generalize deliver n stack ws₁ = delivered at h hd
      obtain ⟨root | stack, ws₂⟩ := delivered
      · cases h
      · rw [ih hb.2 h, hd]

end Parse

namespace Program

/-- What is read of a source, by how parsing ends. Nothing is if it is no list of tokens; else the tokens
of the program, or all of them if they end too early, or those before one that cannot be used. -/
inductive Takes (source : String) : Except CompileError Program → List Token → Prop
  | unread {e : CompileError} (h : Token.scan source = .error e) : Takes source (.error e) []
  | whole {ls : List Lexeme} {p : Phrase} (q : Program) (h : Token.scan source = .ok ls)
      (hp : p.WellFormed) (hls : p.tokens <+: ls.map Lexeme.token) : Takes source (.ok q) p.tokens
  | ended {ls : List Lexeme} (h : Token.scan source = .ok ls) :
      Takes source (.error (.unexpectedEnd ⟨source.utf8ByteSize, source.utf8ByteSize⟩))
        (ls.map Lexeme.token)
  | stopped {before after : List Lexeme} {l : Lexeme} {e : CompileError}
      (h : Token.scan source = .ok (before ++ l :: after)) (hb : ∀ k ∈ before, k.fault? = none)
      (hl : l.fault? = some e) : Takes source (.error e) (before.map Lexeme.token)

variable {source : String}

theorem parse_of_scan_error {e : CompileError} (h : Token.scan source = .error e) (ws : Workspace) :
    parse source ws = (.error e, ws) := by
  simp only [parse, h]
  rfl

theorem parse_of_fails {ls : List Lexeme} (hs : Token.scan source = .ok ls) (hf : Parse.Fails ls)
    (ws : Workspace) : ∃ ws', parse source ws = (.error (Parse.firstFault source.utf8ByteSize ls), ws') ∧
      Parse.finish source.utf8ByteSize [] ls ws =
        (.error (Parse.firstFault source.utf8ByteSize ls), ws') := by
  have hf := hf source.utf8ByteSize [] ws
  simp only [parse, hs, bind, StateT.bind]
  generalize Parse.finish source.utf8ByteSize [] ls ws = r at hf
  obtain ⟨result, ws'⟩ := r
  obtain rfl := hf
  exact ⟨ws', rfl, rfl⟩

theorem exists_takes (source : String) : ∃ taken, ∀ ws,
    Takes source (parse source ws).1 taken ∧
      (parse source ws).2.store = ws.store.lookupAll (Token.names taken) := by
  cases hs : Token.scan source with
  | error e =>
    refine ⟨[], fun ws => ?_⟩
    rw [parse_of_scan_error hs]
    exact ⟨.unread hs, rfl⟩
  | ok ls =>
    rcases Parse.begins_or_fails ls with ⟨p, rest, hb⟩ | hf
    · refine ⟨p.tokens, fun ws => ?_⟩
      rw [hb.parse_eq hs]
      obtain ⟨hp, taken, ht, rfl⟩ := hb
      have hprefix : p.tokens <+: (taken ++ rest).map Lexeme.token :=
        ⟨rest.map Lexeme.token, by rw [List.map_append, ht]⟩
      exact ⟨.whole _ hs hp hprefix, p.lookupAll_build ws⟩
    · cases hfault : ls.findSome? Lexeme.fault? with
      | none =>
        have hnone : ∀ l ∈ ls, l.fault? = none := List.findSome?_eq_none_iff.1 hfault
        refine ⟨ls.map Lexeme.token, fun ws => ?_⟩
        obtain ⟨ws', hp, hfin⟩ := parse_of_fails hs hf ws
        rw [← List.append_nil ls] at hfin
        rw [hp, Parse.firstFault, hfault]
        exact ⟨.ended hs, Parse.lookupAll_finish hnone (.inl rfl) hfin⟩
      | some e =>
        obtain ⟨before, l, after, rfl, hl, hnone⟩ := List.findSome?_eq_some_iff.1 hfault
        refine ⟨before.map Lexeme.token, fun ws => ?_⟩
        obtain ⟨ws', hp, hfin⟩ := parse_of_fails hs hf ws
        rw [hp, Parse.firstFault, hfault]
        exact ⟨.stopped hs hnone hl, Parse.lookupAll_finish hnone (.inr ⟨l, after, e, rfl, hl⟩) hfin⟩

def Adds (source : String) (result : Except CompileError Program) (s t : Store) : Prop :=
  ∃ taken, Takes source result taken ∧ s.Gains (fun name => .name name ∈ taken) t ∧
    ∀ ws : Workspace, ws.store = t → (parse source ws).2.store = t

theorem adds_parse (source : String) (ws : Workspace) :
    Adds source (parse source ws).1 ws.store (parse source ws).2.store := by
  obtain ⟨taken, ht⟩ := exists_takes source
  have hgains : ws.store.Gains (· ∈ Token.names taken) (parse source ws).2.store := by
    rw [(ht ws).2]
    exact ws.store.gains_lookupAll _
  refine ⟨taken, (ht ws).1, hgains.of_iff fun _ => Token.mem_names, ?_⟩
  intro ws' hstore
  rw [(ht ws').2, hstore]
  apply Store.lookupAll_of_mem
  intro name hn
  exact hgains.mem.2 (.inr hn)

end Program

namespace Action

theorem console_of_toStr {v : Value} {s t : State} {source : Str}
    (h : (toStr v).run s = (.ok source, t)) : t.console = s.console := by
  have hconsole := (Uses.toStr v).console_eq s
  rwa [h] at hconsole

theorem sourceProgram_of_error {source : Str} {s : State} {e : CompileError} {ws : Workspace}
    (h : s.workspace.store.programs[source.identity.key]? = none)
    (hp : Program.parse source.text s.workspace = (.error e, ws)) :
    (sourceProgram source).run s = (.error (.error (.ofCompileError e)), ⟨ws, s.console⟩) := by
  have hf := finds_sourceProgram source s
  generalize (sourceProgram source).run s = r at hf
  obtain ⟨result, t⟩ := r
  cases hf with
  | known h' => simp [h] at h'
  | parsed _ hp' => cases hp.symm.trans hp'
  | wrong _ hp' =>
    cases hp.symm.trans hp'
    rfl

end Action

theorem RuntimeError.ofCompileError_cases (e : CompileError) :
    (∃ word span, e = .unknownFunction word span ∧ ofCompileError e = .undefinedFunction word) ∨
      ofCompileError e = .unparsable e := by
  cases e with
  | unknownFunction word span => exact .inl ⟨word, span, rfl, rfl⟩
  | _ => exact .inr rfl

namespace Past

theorem not_found_of_error (deeds : List Deed) {n k : Nat} {store : Store} {q : Program}
    (hn : (run deeds).program? n = some (k, store, q)) {around : Surroundings} {console : Console}
    {c : Config}
    (hc : Machine.Reaches around (q.opening ⟨(run deeds).share.workspace store, console⟩) c)
    {v : Value} (hv : c.control = .value v) {source : Str} {t : State}
    (ht : (Action.toStr v).run c.state = (.ok source, t)) {e : CompileError}
    (he : (Program.parse source.text t.workspace).1 = .error e) :
    t.workspace.store.programs[source.identity.key]? = none := by
  obtain ⟨hhosted, hr⟩ := invariant_rereadable.holds_reached deeds hn hc
  obtain ⟨E, hsource, hE, hm⟩ := hhosted.toStr hv ht
  have hrt : t.workspace.store.Rereadable := by rwa [Action.store_of_toStr ht]
  by_contra hfound
  obtain ⟨found, hfound⟩ := Option.ne_none_iff_exists'.1 hfound
  obtain ⟨-, fresh, ws, hp, -⟩ := Workspace.reuses hrt hE hm _ found.1 found.2 hfound
  rw [Workspace.source_eq_of_found hE hm hsource hfound] at hp
  rw [hp] at he
  cases he

end Past

/-- Parsing adds the names that it reads and nothing else, and nothing when it is done again; and an
`EVAL` of a text that is no program ends the run with what is wrong with the text, and has done nothing
but parse it. -/
theorem Program.parse_only_adds_names :
    (∀ source ws, Adds source (parse source ws).1 ws.store (parse source ws).2.store) ∧
    ∀ deeds n k store q around console c,
      (Past.run deeds).program? n = some (k, store, q) →
      Machine.Reaches around (q.opening ⟨(Past.run deeds).share.workspace store, console⟩) c →
      ∀ v args frames s source t e, c = ⟨.value v, .argument .eval args [] :: frames, s⟩ →
        (Action.toStr v).run s = (.ok source, t) → (parse source.text t.workspace).1 = .error e →
        ∃ error u, Machine.step around c = .halt (.error (.error error)) u ∧
          ((∃ word span, e = .unknownFunction word span ∧ error = .undefinedFunction word) ∨
            error = .unparsable e) ∧
          u.console = s.console ∧
          Adds source.text (.error e) s.workspace.store u.workspace.store ∧
          ∀ name, u.workspace.store.value? name = s.workspace.store.value? name := by
  refine ⟨adds_parse, ?_⟩
  intro deeds n k store q around console c hn hc v args frames s source t e hce hv he
  subst hce
  have hnone := Past.not_found_of_error deeds hn hc rfl hv he
  have hstore := Action.store_of_toStr hv
  have hconsole := Action.console_of_toStr hv
  have hp : parse source.text t.workspace = (.error e, (parse source.text t.workspace).2) :=
    Prod.ext he rfl
  refine ⟨.ofCompileError e, ⟨(parse source.text t.workspace).2, t.console⟩, ?_,
    RuntimeError.ofCompileError_cases e, hconsole, ?_, fun name => ?_⟩
  · have hrun := (Action.run_bind_of_ok hv).trans (Action.sourceProgram_of_error hnone hp)
    exact Machine.after_of_error hrun
  · have hadds := adds_parse source.text t.workspace
    rwa [he, hstore] at hadds
  · rw [← hstore]
    exact Program.value?_of_parse hp name

def Program.evaluated? (p : Program) : Option Str :=
  match p.root with
  | .call _ _ .eval [.literal _ (.str source)] => some source
  | _ => none

theorem Program.eq_of_evaluated? {p : Program} {source : Str} (h : p.evaluated? = some source) :
    ∃ id word id', p = ⟨.call id word .eval [.literal id' (.str source)]⟩ := by
  obtain ⟨root⟩ := p
  unfold evaluated? at h
  split at h
  · rename_i hroot
    obtain rfl := Option.some.inj h
    exact ⟨_, _, _, congrArg Program.mk hroot⟩
  · cases h

theorem Program.parse_only_adds_names_eval :
    let around : Surroundings := ⟨fun _ => 0, fun _ _ files => ((.exited 0, []), files)⟩
    let deeds : List Deed := [.openStore, .parse 0 "EVAL '+ x'"]
    ∃ k store q c error u, (Past.run deeds).program? 0 = some (k, store, q) ∧
      Machine.Reaches around (q.opening ⟨(Past.run deeds).share.workspace store, {}⟩) c ∧
      Machine.step around c = .halt (.error (.error error)) u ∧
      u.console = c.state.console ∧ "x" ∈ u.workspace.store.names := by
  intro around deeds
  have hread : (((Past.run deeds).program? 0).bind (·.2.2.evaluated?)).map Str.text = some "+ x" := by
    decide +kernel
  obtain ⟨source, hsource, htext⟩ := Option.map_eq_some_iff.1 hread
  obtain ⟨⟨k, store, q⟩, hn, hq⟩ := Option.bind_eq_some_iff.1 hsource
  obtain ⟨id, word, id', rfl⟩ := eq_of_evaluated? hq
  have hs : Token.scan source.text = .ok [⟨.binary .add, 0, 1⟩, ⟨.name "x", 2, 3⟩] := by
    rw [htext]
    decide +kernel
  have hc (s : State) : Machine.Reaches around
      ⟨.node (.call id word .eval [.literal id' (.str source)]), [], s⟩
      ⟨.value (.str source), [.argument .eval [.literal id' (.str source)] []], s⟩ :=
    .tail (.single rfl) rfl
  have hv (s : State) : (Action.toStr (.str source)).run s = (.ok source, s) := rfl
  have he (ws : Workspace) : (parse source.text ws).1 =
      .error (.unexpectedEnd ⟨source.text.utf8ByteSize, source.text.utf8ByteSize⟩) := by
    simp only [parse, hs]
    rfl
  obtain ⟨error, u, hstep, -, hconsole, ⟨taken, ht, hgains, -⟩, -⟩ :=
    parse_only_adds_names.2 deeds _ k store _ around {} _ hn (hc _) _ _ _ _ source _ _ rfl (hv _)
      (he _)
  refine ⟨k, store, _, _, error, u, hn, hc _, hstep, hconsole, hgains.mem.2 (.inr ?_)⟩
  cases ht with
  | unread h => cases hs.symm.trans h
  | ended h =>
    obtain rfl := Except.ok.inj (hs.symm.trans h)
    exact .tail _ (.head _)
  | @stopped before after l e h hb hl =>
    have hmem : l ∈ ([⟨.binary .add, 0, 1⟩, ⟨.name "x", 2, 3⟩] : List Lexeme) := by
      rw [Except.ok.inj (hs.symm.trans h)]
      simp
    simp only [List.mem_cons, List.not_mem_nil, or_false] at hmem
    rcases hmem with rfl | rfl <;> cases hl

end KnightLang
