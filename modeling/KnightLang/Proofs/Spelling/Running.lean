import KnightLang.Proofs.Console.Turns
import KnightLang.Proofs.Spelling.Stepping

namespace KnightLang

open List (Forall₂)

abbrev Outcome.Respells : Except Stop Value → Except Stop Value → Prop :=
  Outcomes Stop.Respells Value.Respells

namespace Machine

variable {around : Surroundings} {c d e : Config}

def always (around : Surroundings) (P : Config → Bool) : Nat → Config → Bool
  | 0, _ => false
  | fuel + 1, c => P c &&
    match step around c with
    | .next e => always around P fuel e
    | .halt _ _ => true

theorem of_always {P : Config → Bool} {fuel : Nat} (h : always around P fuel c = true)
    (hd : Reaches around c d) : P d = true := by
  induction fuel generalizing c with
  | zero => cases h
  | succ fuel ih =>
    rw [always, Bool.and_eq_true] at h
    rcases hd.cases_head with rfl | ⟨e, he, hd⟩
    · exact h.1
    · rw [he] at h
      exact ih h.2 hd

theorem advance_respells (fuel : Nat) (h : c.Respells e)
    (hc : ∀ d, Reaches around c d → d.showsTree = false) :
    Option.Rel Outcome.Respells (advance around fuel c).1 (advance around fuel e).1 ∧
      (advance around fuel c).2.Respells (advance around fuel e).2 := by
  induction fuel generalizing c e with
  | zero => exact ⟨.none, h.state⟩
  | succ fuel ih =>
    have hstep := Step.Respells.step around h (hc c .refl)
    simp only [advance]
    generalize hx : step around c = x at hstep
    generalize step around e = y at hstep
    cases hstep with
    | next h => exact ih h fun d hd => hc d (hd.head hx)
    | halt hr hs => exact ⟨.some hr, hs⟩

end Machine

namespace Program

variable {around : Surroundings} {p q : Program} {r r' : Except Stop Value} {s t : State}

theorem flushed_respells (h : Outcome.Respells r r') (hs : s.Respells t) :
    Outcome.Respells (flushed r s).1 (flushed r' t).1 ∧
      (flushed r s).2.Respells (flushed r' t).2 := by
  rw [flushed_eq, flushed_eq, hs.console]
  rcases Console.flush.run t.console with ⟨failure | _, c⟩
  · exact ⟨.error (Stop.respells_refl _), hs.workspace, rfl⟩
  · exact ⟨h, hs.workspace, rfl⟩

theorem conclude_respells (h : Outcome.Respells r r') (hs : s.Respells t) :
    Outcome.Respells (conclude r s).1 (conclude r' t).1 ∧
      (conclude r s).2.Respells (conclude r' t).2 := by
  cases h with
  | ok h => exact flushed_respells (.ok h) hs
  | error h =>
    cases h with
    | error h => exact flushed_respells (.error (.error h)) hs
    | panic p => exact ⟨.error (.panic p), hs⟩

theorem execute_respells (h : p.Respells q) (hs : s.Respells t)
    (hc : ∀ c, Machine.Reaches around (p.opening s) c → c.showsTree = false) (fuel : Nat) :
    Option.Rel (fun e e' => Outcome.Respells e.1 e'.1 ∧ e.2.Respells e'.2)
      (p.execute around fuel s) (q.execute around fuel t) := by
  have hwarm : Action.Agrees Eq (Action.onStrings Cache.warm) (Action.onStrings Cache.warm) :=
    .of_uses (K := ∅) (.strings _) id
  have hopening : (p.opening s).Respells (q.opening t) := ⟨.node h, .nil, (hwarm hs).1⟩
  obtain ⟨hr, hst⟩ := Machine.advance_respells fuel hopening hc
  rw [execute_eq, execute_eq]
  have hconclude (r r' : Except Stop Value) (hr : Outcome.Respells r r') :=
    conclude_respells hr hst
  exact rel_map hconclude hr

end Program

structure Store.SameContents (s t : Store) : Prop where
  value? (name : String) : Option.Rel Value.Respells (s.value? name) (t.value? name)
  size : s.size = t.size
  programCount : s.programCount = t.programCount

theorem Store.Respells.sameContents {s t : Store} (h : s.Respells t) : s.SameContents t where
  value? := h.value?
  size := congrArg Std.TreeMap.size h.names
  programCount := h.count

namespace Program

/-- Two sources with the same tokens, up to zeros at the head of integers, and up to the characters of
words after the first where it is no X, do the same with every store, input and surroundings: both are
programs or neither is, for a reason of the same kind. Unless the programs evaluate an `XD`, they stop
after the same number of steps or not at all, with results of which only the words of a block and the
text of what cannot be assigned may differ, and leave the same console and variables. -/
theorem spelling_never_matters {source source' : String} {ls ls' : List Lexeme}
    (hs : Token.scan source = .ok ls) (hs' : Token.scan source' = .ok ls')
    (h : Forall₂ Token.Respells (ls.map Lexeme.token) (ls'.map Lexeme.token)) (ws : Workspace) :
    let r := parse source ws
    let r' := parse source' ws
    r.2.Respells r'.2 ∧ r.2.store.SameContents r'.2.store ∧
    Outcomes CompileError.Respells (fun p q => p.Respells q ∧
      ∀ (around : Surroundings) (console : Console),
        (∀ c, Machine.Reaches around (p.opening ⟨r.2, console⟩) c → c.showsTree = false) →
        ∀ fuel, Option.Rel (fun e e' => Outcome.Respells e.1 e'.1 ∧ e.2.console = e'.2.console ∧
            e.2.Respells e'.2 ∧ e.2.workspace.store.SameContents e'.2.workspace.store)
          (p.execute around fuel ⟨r.2, console⟩) (q.execute around fuel ⟨r'.2, console⟩))
      r.1 r'.1 := by
  intro r r'
  have hls : Forall₂ (fun l l' => l.token.Respells l'.token) ls ls' := by
    rwa [List.forall₂_map_left_iff, List.forall₂_map_right_iff] at h
  have hrefl : ws.Respells ws := ⟨rfl, ws.store.respells_refl, rfl⟩
  obtain ⟨hws, hr⟩ : r.2.Respells r'.2 ∧ Outcomes CompileError.Respells Program.Respells r.1 r'.1 :=
    agree_parse hs hs' hls hrefl
  refine ⟨hws, hws.store.sameContents, ?_⟩
  obtain ⟨parsed, v⟩ := r
  obtain ⟨parsed', w⟩ := r'
  cases hr with
  | error he => exact .error he
  | ok hp =>
    refine .ok ⟨hp, fun around console hc fuel => ?_⟩
    have hstart : State.Respells ⟨v, console⟩ ⟨w, console⟩ := ⟨hws, rfl⟩
    refine rel_mono (fun e e' he => ?_) (execute_respells hp hstart hc fuel)
    exact ⟨he.1, he.2.console, he.2, he.2.workspace.store.sameContents⟩

theorem spelling_never_matters_output :
    let around : Surroundings := ⟨fun _ => 0, fun _ _ files => ((.exited 0, []), files)⟩
    let ws : Workspace := ⟨.create { least := 0, greatest := 0 } {}, .empty, 0⟩
    let r := parse "; = x 007 OUTPUT + 'a' x" ws
    let r' := parse ";=x 7 O+\"a\"x" ws
    ∃ p q, r.1 = .ok p ∧ r'.1 = .ok q ∧
      ∀ fuel, Option.Rel (fun e e' => Outcome.Respells e.1 e'.1 ∧ e.2.console = e'.2.console)
        (p.execute around fuel ⟨r.2, {}⟩) (q.execute around fuel ⟨r'.2, {}⟩) := by
  intro around ws r r'
  have hs : Token.scan "; = x 007 OUTPUT + 'a' x" = .ok [⟨.binary .chain, 0, 1⟩,
      ⟨.binary .assign, 2, 3⟩, ⟨.name "x", 4, 5⟩, ⟨.integer "007", 6, 9⟩, ⟨.word "OUTPUT", 10, 16⟩,
      ⟨.binary .add, 17, 18⟩, ⟨.text "a", 19, 22⟩, ⟨.name "x", 23, 24⟩] := by
    decide +kernel
  have hs' : Token.scan ";=x 7 O+\"a\"x" = .ok [⟨.binary .chain, 0, 1⟩,
      ⟨.binary .assign, 1, 2⟩, ⟨.name "x", 2, 3⟩, ⟨.integer "7", 4, 5⟩, ⟨.word "O", 6, 7⟩,
      ⟨.binary .add, 7, 8⟩, ⟨.text "a", 8, 11⟩, ⟨.name "x", 11, 12⟩] := by
    decide +kernel
  have hzeros : Token.Respells (.integer "007") (.integer "7") := .integer 2 0 ['7']
  have hword : Token.Respells (.word "OUTPUT") (.word "O") :=
    @Token.Respells.word 'O' (by decide) "UTPUT".toList []
  obtain ⟨-, -, h⟩ := spelling_never_matters hs hs' (.cons (.same _) (.cons (.same _)
    (.cons (.same _) (.cons hzeros (.cons hword
      (.cons (.same _) (.cons (.same _) (.cons (.same _) .nil)))))))) ws
  have hshown : r.1.toOption.any
      (fun p => Machine.always around (!·.showsTree) 20 (p.opening ⟨r.2, {}⟩)) = true := by
    decide +kernel
  rw [Option.any_eq_true] at hshown
  obtain ⟨p, hp, hshown⟩ := hshown
  have hp : r.1 = .ok p := by
    generalize r.1 = parsed at hp
    cases parsed with
    | error e => cases hp
    | ok q => rw [Option.some.inj hp]
  obtain ⟨q, hq, -, h⟩ := h.exists_ok hp
  refine ⟨p, q, hp, hq, fun fuel => ?_⟩
  refine rel_mono (fun e e' he => ⟨he.1, he.2.1⟩) (h around {} (fun c hc => ?_) fuel)
  simpa using Machine.of_always hshown hc

end Program

end KnightLang
