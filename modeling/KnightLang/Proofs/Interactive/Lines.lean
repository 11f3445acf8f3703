import KnightLang.Proofs.Console.Prompting
import KnightLang.Proofs.Interactive.Idle

namespace KnightLang

namespace Input

theorem flatten_cut (count : Nat) (bs : List UInt8) (h : bs.length ≤ count * 8192) :
    (cut count bs).flatten = bs := by
  induction count generalizing bs with
  | zero =>
    have hnil : bs = [] := by
      apply List.eq_nil_of_length_eq_zero
      omega
    rw [hnil]
    rfl
  | succ count ih =>
    have hrest : (bs.drop 8192).length ≤ count * 8192 := by
      rw [List.length_drop]
      omega
    rw [cut, List.flatten_cons, ih _ hrest, List.take_append_drop]

theorem content_arriving (bs : List UInt8) : (arriving bs).content = bs := by
  apply flatten_cut
  omega

theorem readWaitingLine_cases {i : Input} (h : i.failure = none) (hheld : i.ahead = []) :
    ∃ line j, i.readWaitingLine = (line, j) ∧ j.failure = none ∧
      (line = [] ∧ lines i.content = [] ∧ lines j.content = [] ∨
        line ≠ [] ∧ lines i.content = line :: lines j.content) := by
  obtain ⟨ahead, pieces, failure⟩ := i
  obtain rfl : ahead = [] := hheld
  obtain ⟨line, j, hread, -, hcases⟩ := readLine_cases h
  rw [readLine_eq h] at hread
  obtain ⟨hline, rfl⟩ := Prod.mk.inj hread
  obtain rfl := Except.ok.inj hline
  exact ⟨_, _, rfl, h, hcases⟩

end Input

def Workspace.Hosted (ws : Workspace) : Prop :=
  ∃ (caches : Caches) (k : Nat) (w : Pairing), ws.Alike (.itself caches k) 0 w ws

namespace Workspace.Hosted

variable {ws ws' : Workspace} {source : String}

theorem fresh : Workspace.fresh.Hosted := by
  obtain ⟨E, hE⟩ := Past.sound_empty.share
  let p : Past := {}
  have hstart : p.share.workspace .empty = Workspace.fresh := rfl
  rw [← hstart]
  exact ⟨_, _, _, hE.alike rfl Past.matches_empty⟩

theorem parse (h : ws.Hosted) {parsed : Except CompileError Program}
    (hp : Program.parse source ws = (parsed, ws')) : ws'.Hosted ∧
      ∀ q, parsed = .ok q → ∀ console, (q.opening ⟨ws', console⟩).Hosted := by
  obtain ⟨caches, k, w, hws⟩ := h
  have hlawful := Link.lawful_itself caches k
  obtain ⟨w', -, hs, hr⟩ := Program.sim_parse hlawful source le_rfl hws Link.enough_itself
    Link.enough_itself
  rw [hp] at hs hr
  refine ⟨⟨caches, k, w', hs⟩, ?_⟩
  rintro q rfl console
  cases hr with
  | ok hq =>
    obtain ⟨w'', hw, hl⟩ := State.warmed_alike hlawful (s := ⟨ws', console⟩) (t := ⟨ws', console⟩)
      ⟨hs, rfl⟩ Link.enough_itself Link.enough_itself
    exact ⟨caches, k, w'', .node (Node.Matches.mono hw hq), .nil, hl⟩

end Workspace.Hosted

theorem Machine.hosted_advance (around : Surroundings) (fuel : Nat) {c : Config} (h : c.Hosted) :
    (advance around fuel c).2.workspace.Hosted := by
  obtain ⟨caches, k, w, hc⟩ := h
  obtain ⟨w', -, hs, -⟩ := advance_alike (Link.lawful_itself caches k) around fuel hc
    Link.enough_itself Link.enough_itself
  exact ⟨caches, k, w', hs.workspace⟩

theorem Program.hosted_execute {around : Surroundings} {fuel : Nat} {q : Program} {s t : State}
    {result : Except Stop Value} (hq : (q.opening s).Hosted)
    (h : q.execute around fuel s = some (result, t)) : t.workspace.Hosted := by
  rw [execute_eq] at h
  obtain ⟨r, -, hr⟩ := Option.map_eq_some_iff.1 h
  have hworkspace := workspace_conclude r (q.advance around fuel s).2
  rw [hr] at hworkspace
  rw [hworkspace]
  exact Machine.hosted_advance around fuel hq

namespace Interactive

/-- Where a line goes: the session takes it, or a `PROMPT` is answered with it. -/
inductive Taken
  | line (bytes : List UInt8)
  | reply (reply : Except Stop Value)

inductive Taken.Fits : Option (List UInt8) → Taken → Prop
  | line (bytes : List UInt8) : Fits (some bytes) (.line bytes)
  | reply {line? : Option (List UInt8)} {reply : Except Stop Value} (h : Answers line? reply) :
      Fits line? (.reply reply)

namespace Session

abbrev input (s : Session) : Input := s.state.console.input

def repliesTo (around : Surroundings) (fuel : Nat) (source : String) (s : Session) :
    List (Except Stop Value) :=
  match Program.parse source s.state.workspace with
  | (.ok q, ws) => Machine.replies around fuel (q.opening ⟨ws, s.state.console⟩)
  | (.error _, _) => []

def replies (around : Surroundings) (fuel : Nat) (line : List UInt8) (s : Session) :
    List (Except Stop Value) :=
  if line.isEmpty then []
  else
    match (Text.decode? line).map Line.ofText with
    | some (.program source) => s.repliesTo around fuel source
    | _ => []

structure Sound (s : Session) : Prop where
  hosted : s.state.workspace.Hosted
  failure : s.input.failure = none
  unlimited : s.state.console.output.Unlimited

theorem readLine_eq (s : Session) : s.readLine = (s.input.readWaitingLine.1,
    { s with state := { s.state with
        console := { s.state.console with input := s.input.readWaitingLine.2 } } }) := rfl

theorem Sound.print {s : Session} (h : s.Sound) (text : String) : (s.print text).Sound :=
  ⟨h.hosted, h.failure, (Output.grows_write text.toByteArray _).unlimited h.unlimited⟩

theorem Sound.printError {s : Session} (h : s.Sound) (text : String) : (s.printError text).Sound :=
  ⟨h.hosted, h.failure, h.unlimited⟩

end Session

variable {around : Surroundings} {fuel : Nat} {s t : Session}

theorem evaluate_of_error {source : String} {e : CompileError} {ws : Workspace}
    (h : Program.parse source s.state.workspace = (.error e, ws)) : evaluate around fuel source s =
      some (.more, Session.printError ("Parse error: " ++ e.message ++ "\n")
        { s with state := { s.state with workspace := ws } }) := by
  unfold evaluate
  rw [h]

theorem exists_execute_of_evaluate {source : String} {q : Program} {ws : Workspace} {next : Next}
    (hq : Program.parse source s.state.workspace = (.ok q, ws))
    (h : evaluate around fuel source s = some (next, t)) :
    ∃ result state, q.execute around fuel ⟨ws, s.state.console⟩ = some (result, state) ∧
      t.state.workspace = state.workspace ∧ t.input = state.console.input ∧
      state.console.output.Grows t.state.console.output := by
  unfold evaluate at h
  rw [hq] at h
  obtain ⟨⟨result, state⟩, hrun, h⟩ := Option.bind_eq_some_iff.1 h
  refine ⟨result, state, hrun, ?_⟩
  have shown (text : String) (u : Session) :
      u.state.console.output.Grows (u.print text).state.console.output :=
    Output.grows_write text.toByteArray u.state.console.output
  let u : Session := ⟨state, s.errors⟩
  dsimp only at h
  split at h
  all_goals obtain ⟨-, rfl⟩ := Prod.mk.inj (Option.some.inj h)
  · exact ⟨rfl, rfl, .refl _⟩
  · exact ⟨rfl, rfl, shown _ u⟩
  · exact ⟨rfl, rfl, shown _ u⟩
  · exact ⟨rfl, rfl, .refl _⟩
  · exact ⟨rfl, rfl, .refl _⟩

def Answered (s : Session) (replies : List (Except Stop Value)) (r : Option (Next × Session)) : Prop :=
  ∃ j, s.input.Yields Answers replies j ∧ (replies = [] → j = s.input) ∧
    ∀ next t, r = some (next, t) → t.Sound ∧ t.input = j

theorem answered_nil (hs : s.Sound) {next : Next} (ht : t.Sound) (hinput : t.input = s.input) :
    Answered s [] (some (next, t)) := by
  refine ⟨s.input, .refl hs.failure, fun _ => rfl, ?_⟩
  intro next' u h
  obtain ⟨-, rfl⟩ := Prod.mk.inj (Option.some.inj h)
  exact ⟨ht, hinput⟩

theorem answered_evaluate (hs : s.Sound) (around : Surroundings) (fuel : Nat) (source : String) :
    Answered s (s.repliesTo around fuel source) (evaluate around fuel source s) := by
  unfold Session.repliesTo
  rcases hp : Program.parse source s.state.workspace with ⟨e | q, ws⟩
  · obtain ⟨hhosted, -⟩ := hs.hosted.parse hp
    rw [evaluate_of_error hp]
    apply answered_nil hs
    · exact ⟨hhosted, hs.failure, hs.unlimited⟩
    · rfl
  · obtain ⟨-, hopening⟩ := hs.hosted.parse hp
    have hq := hopening q rfl s.state.console
    have hyields := Program.yields_consoleAfter around fuel hq hs.failure
    refine ⟨_, hyields, ?_, ?_⟩
    · intro hnone
      rw [Program.input_consoleAfter]
      exact Machine.input_advance around fuel hq hs.failure hnone
    intro next t h
    obtain ⟨result, state, hrun, hws, hinput, hgrows⟩ := exists_execute_of_evaluate hp h
    have hconsole := Program.consoleAfter_eq_of_execute hrun
    have ht : t.input = (q.consoleAfter around fuel ⟨ws, s.state.console⟩).input := by
      rw [hinput, hconsole]
    refine ⟨⟨?_, ?_, ?_⟩, ht⟩
    · rw [hws]
      exact Program.hosted_execute hq hrun
    · rw [ht]
      exact hyields.failure
    · apply hgrows.unlimited
      exact (Program.leads_execute hrun).grows.unlimited hs.unlimited

theorem answered_useLine (hs : s.Sound) (around : Surroundings) (fuel : Nat) (line : List UInt8) :
    Answered s (s.replies around fuel line) (useLine around fuel line s) := by
  unfold Session.replies useLine
  by_cases hline : line.isEmpty
  · rw [if_pos hline, if_pos hline]
    exact answered_nil hs (hs.print _) rfl
  · rw [if_neg hline, if_neg hline]
    cases Text.decode? line with
    | none => exact answered_nil hs (hs.printError _) rfl
    | some text =>
      dsimp only [Option.map_some]
      cases Line.ofText text with
      | blank => exact answered_nil hs hs rfl
      | quit => exact answered_nil hs (hs.print _) rfl
      | help => exact answered_nil hs (hs.print _) rfl
      | clear => exact answered_nil hs (hs.print _) rfl
      | program source => exact answered_evaluate hs around fuel source

def GoesOn (around : Surroundings) (fuel : Nat) (s t : Session) : Prop :=
  useLine around fuel s.readLine.1 s.readLine.2 = some (.more, t)

def Visits (around : Surroundings) (fuel : Nat) : Session → Session → Prop :=
  Relation.ReflTransGen (GoesOn around fuel)

def taken (around : Surroundings) (fuel : Nat) : Nat → Session → List Taken
  | 0, _ => []
  | lines + 1, s =>
    let (line, s) := s.readLine
    if line.isEmpty then []
    else
      .line line :: (s.replies around fuel line).map .reply ++
        match useLine around fuel line s with
        | some (.more, s) => taken around fuel lines s
        | _ => []

theorem Session.Sound.readLine (hs : s.Sound) (hheld : s.input.ahead = []) :
    ∃ line u, s.readLine = (line, u) ∧ u.Sound ∧
      (line = [] ∧ s.input.Yields Taken.Fits [] u.input ∧ u.input.content = [] ∨
        line ≠ [] ∧ s.input.Yields Taken.Fits [.line line] u.input ∧
          u.input.content.length < s.input.content.length) := by
  obtain ⟨line, j, hread, hj, hcases⟩ := Input.readWaitingLine_cases hs.failure hheld
  rw [Session.readLine_eq, hread]
  refine ⟨_, _, rfl, ⟨hs.hosted, hj, hs.unlimited⟩, ?_⟩
  rcases hcases with ⟨hline, hi, hl⟩ | ⟨hline, hi⟩
  · refine .inl ⟨hline, ⟨nofun, ?_, hj⟩, ?_⟩
    · rw [hi]
      exact hl
    · rw [← Input.flatten_lines j.content, hl]
      rfl
  · refine .inr ⟨hline, .one ?_ ?_ hj, ?_⟩
    · rw [hi]
      exact .line line
    · rw [hi]
      rfl
    · have hcontent : s.input.content = line ++ j.content := by
        rw [← Input.flatten_lines s.input.content, hi, List.flatten_cons, Input.flatten_lines]
      have hpos : 0 < line.length := List.length_pos_iff.2 hline
      have hlength : j.content.length < s.input.content.length := by
        rw [hcontent, List.length_append]
        omega
      exact hlength

theorem yields_taken (around : Surroundings) (fuel lines : Nat) {s : Session} (hs : s.Sound)
    (hheld : ∀ t, Visits around fuel s t → t.input.ahead = []) :
    ∃ j, s.input.Yields Taken.Fits (taken around fuel lines s) j ∧
      ∀ result t, useLines around fuel lines s = some (result, t) → t.input.content = j.content := by
  induction lines generalizing s with
  | zero =>
    refine ⟨s.input, .refl hs.failure, ?_⟩
    rintro result t ⟨⟩
    rfl
  | succ lines ih =>
    obtain ⟨line, u, hread, hu, hcases⟩ := hs.readLine (hheld s .refl)
    unfold taken useLines
    rw [hread]
    dsimp only
    rcases hcases with ⟨rfl, hyields, -⟩ | ⟨hline, hyields, -⟩
    · refine ⟨_, hyields, ?_⟩
      rintro result t ⟨⟩
      rfl
    · have hempty : ¬ line.isEmpty := by simpa using hline
      obtain ⟨j, hj, -, hend⟩ := answered_useLine hu around fuel line
      have hstart := hyields.trans (hj.map fun _ _ h => .reply h)
      rw [if_neg hempty]
      -- wherever the session stops, the input is the one behind the last answer
      have ended {r : Option (Option Panic × Session)}
          (hr : ∀ result t, r = some (result, t) → t.input = j) :
          ∃ k, s.input.Yields Taken.Fits
              ([.line line] ++ (u.replies around fuel line).map .reply ++ []) k ∧
            ∀ result t, r = some (result, t) → t.input.content = k.content := by
        rw [List.append_nil]
        refine ⟨j, hstart, ?_⟩
        intro result t ht
        rw [hr result t ht]
      rcases hu' : useLine around fuel line u with _ | ⟨_ | _ | p, t⟩
      · apply ended
        intro result v hv
        cases hv
      · have hgoes : GoesOn around fuel s t := by
          unfold GoesOn
          rwa [hread]
        obtain ⟨ht, rfl⟩ := hend _ t hu'
        obtain ⟨k, hk, hlast⟩ := ih ht fun v hv => hheld v (hv.head hgoes)
        exact ⟨k, hstart.trans hk, hlast⟩
      · apply ended
        rintro result v ⟨⟩
        exact (hend _ t hu').2
      · apply ended
        rintro result v ⟨⟩
        exact (hend _ t hu').2

def Lasts (around : Surroundings) (fuel : Nat) (s : Session) : Prop :=
  ∀ t, Visits around fuel s t → t.readLine.1 ≠ [] → ∃ u, GoesOn around fuel t u

theorem useLines_of_lasts (lines : Nat) {s : Session} (hs : s.Sound)
    (hheld : ∀ t, Visits around fuel s t → t.input.ahead = []) (hlasts : Lasts around fuel s)
    (hlines : s.input.content.length < lines) :
    ∃ last, Visits around fuel s last ∧ last.readLine.2.input.content = [] ∧
      useLines around fuel lines s = some (none, last.readLine.2.print farewell) := by
  induction lines generalizing s with
  | zero => omega
  | succ lines ih =>
    obtain ⟨line, u, hread, hu, hcases⟩ := hs.readLine (hheld s .refl)
    rcases hcases with ⟨rfl, -, hnil⟩ | ⟨hline, -, hshorter⟩
    · refine ⟨s, .refl, ?_, ?_⟩
      · rw [hread]
        exact hnil
      · unfold useLines
        rw [hread]
        rfl
    · have hne : s.readLine.1 ≠ [] := by rwa [hread]
      obtain ⟨t, hgoes⟩ := hlasts s .refl hne
      have huse : useLine around fuel line u = some (.more, t) := by
        unfold GoesOn at hgoes
        rwa [hread] at hgoes
      obtain ⟨j, hj, -, hend⟩ := answered_useLine hu around fuel line
      obtain ⟨ht, rfl⟩ := hend _ t huse
      have hrest := hj.content_suffix.length_le
      have hlt : t.input.content.length < lines := by omega
      have hlater {v : Session} (hv : Visits around fuel t v) : Visits around fuel s v := hv.head hgoes
      obtain ⟨last, hlast, hnil, hrun⟩ := ih ht (fun v hv => hheld v (hlater hv))
        (fun v hv => hlasts v (hlater hv)) hlt
      refine ⟨last, hlater hlast, hnil, ?_⟩
      rw [← hrun, useLines, hread]
      dsimp only
      rw [huse]

def opening (files : Files.Tree) (stdin : List UInt8) : Session :=
  Session.print greeting { state := ⟨.fresh, { input := .arriving stdin, files }⟩ }

theorem sound_opening (files : Files.Tree) (stdin : List UInt8) : (opening files stdin).Sound :=
  Session.Sound.print ⟨.fresh, rfl, rfl, fun _ _ => rfl⟩ greeting

theorem content_opening (files : Files.Tree) (stdin : List UInt8) :
    (opening files stdin).input.content = stdin := Input.content_arriving stdin

theorem Session.Sound.read (hs : s.Sound) : s.readLine.2.Sound :=
  ⟨hs.hosted, hs.failure, hs.unlimited⟩

theorem Session.Sound.visits (hs : s.Sound) (h : Visits around fuel s t) : t.Sound := by
  induction h with
  | refl => exact hs
  | @tail u v _ hgoes ih =>
    obtain ⟨j, -, -, hend⟩ := answered_useLine ih.read around fuel u.readLine.1
    exact (hend _ v hgoes).1

theorem ahead_of_visits (hs : s.Sound) (hstart : s.input.ahead = [])
    (hnone : ∀ u, Visits around fuel s u → u.readLine.2.replies around fuel u.readLine.1 = [])
    (h : Visits around fuel s t) : t.input.ahead = [] := by
  induction h with
  | refl => exact hstart
  | @tail u v hu hgoes ih =>
    obtain ⟨j, -, hj, hend⟩ := answered_useLine (hs.visits hu).read around fuel u.readLine.1
    obtain ⟨-, hv⟩ := hend _ v hgoes
    rw [hv, hj (hnone u hu)]
    exact ih

theorem exists_line_of_mem_taken {lines : Nat} {use : Taken}
    (hnone : ∀ u, Visits around fuel s u → u.readLine.2.replies around fuel u.readLine.1 = [])
    (h : use ∈ taken around fuel lines s) : ∃ line, use = .line line := by
  induction lines generalizing s with
  | zero => cases h
  | succ lines ih =>
    unfold taken at h
    dsimp only at h
    rw [hnone s .refl] at h
    split at h
    · cases h
    · rcases List.mem_cons.1 h with rfl | h
      · exact ⟨_, rfl⟩
      · split at h
        · rename_i t hgoes
          exact ih (fun u hu => hnone u (hu.head hgoes)) h
        · cases h

theorem uses_of_lasts (around : Surroundings) (fuel : Nat) (files : Files.Tree) (stdin : List UInt8)
    (hheld : ∀ s, Visits around fuel (opening files stdin) s → s.input.ahead = [])
    (hlasts : Lasts around fuel (opening files stdin)) :
    let uses := taken around fuel (stdin.length + 1) (opening files stdin)
    (∀ (k : Nat) (use : Taken), uses[k]? = some use → use.Fits (Input.lines stdin)[k]?) ∧
    (Input.lines stdin).length ≤ uses.length ∧
    ∃ last, Visits around fuel (opening files stdin) last ∧
      run around fuel files stdin = some (none, last.readLine.2.print farewell) := by
  have hs := sound_opening files stdin
  have hcontent := content_opening files stdin
  have hlines : (opening files stdin).input.content.length < stdin.length + 1 := by
    rw [hcontent]
    omega
  obtain ⟨j, hyields, hend⟩ := yields_taken around fuel (stdin.length + 1) hs hheld
  obtain ⟨last, hlast, hnil, hrun⟩ := useLines_of_lasts (stdin.length + 1) hs hheld hlasts hlines
  have hfits {k : Nat} {use : Taken} := hyields.fits (k := k) (x := use)
  have hleft := hyields.left
  have hj : j.content = [] := (hend _ _ hrun).symm.trans hnil
  rw [hcontent] at hfits
  rw [hcontent, hj] at hleft
  exact ⟨fun k use => hfits, List.drop_eq_nil_iff.1 hleft.symm, last, hlast, hrun⟩

/-- Where no `PROMPT` is answered, the session takes all lines itself, each of them once. -/
theorem session_takes_all_lines (around : Surroundings) (fuel : Nat) (files : Files.Tree)
    (stdin : List UInt8)
    (hnone : ∀ s, Visits around fuel (opening files stdin) s →
      s.readLine.2.replies around fuel s.readLine.1 = [])
    (hlasts : Lasts around fuel (opening files stdin)) :
    taken around fuel (stdin.length + 1) (opening files stdin) =
      (Input.lines stdin).map Taken.line ∧
    ∃ last, Visits around fuel (opening files stdin) last ∧
      run around fuel files stdin = some (none, last.readLine.2.print farewell) := by
  have hheld : ∀ s, Visits around fuel (opening files stdin) s → s.input.ahead = [] :=
    fun s hs => ahead_of_visits (sound_opening files stdin) rfl hnone hs
  obtain ⟨hfits, hall, hlast⟩ := uses_of_lasts around fuel files stdin hheld hlasts
  refine ⟨List.ext_getElem? fun k => ?_, hlast⟩
  rw [List.getElem?_map]
  cases huse : (taken around fuel (stdin.length + 1) (opening files stdin))[k]? with
  | none =>
    have hk := hall.trans (List.getElem?_eq_none_iff.1 huse)
    rw [List.getElem?_eq_none_iff.2 hk]
    rfl
  | some use =>
    obtain ⟨line, rfl⟩ := exists_line_of_mem_taken hnone (List.mem_of_getElem? huse)
    have hline := hfits k _ huse
    generalize (Input.lines stdin)[k]? = line? at hline ⊢
    cases hline
    rfl

def endsWithin (p : Session → Bool) (around : Surroundings) (fuel : Nat) : Nat → Session → Bool
  | 0, _ => false
  | lines + 1, s =>
    p s &&
      let (line, u) := s.readLine
      line.isEmpty ||
        match useLine around fuel line u with
        | some (.more, t) => endsWithin p around fuel lines t
        | _ => false

theorem of_endsWithin {p : Session → Bool} {lines : Nat} (h : endsWithin p around fuel lines s = true) :
    (∀ t, Visits around fuel s t → p t = true) ∧ Lasts around fuel s := by
  suffices hall : ∀ t, Visits around fuel s t → p t = true ∧
      (t.readLine.1 ≠ [] → ∃ u, GoesOn around fuel t u) from
    ⟨fun t ht => (hall t ht).1, fun t ht => (hall t ht).2⟩
  intro t ht
  induction lines generalizing s with
  | zero => cases h
  | succ lines ih =>
    simp only [endsWithin, Bool.and_eq_true, Bool.or_eq_true, List.isEmpty_iff] at h
    obtain ⟨hp, hrest⟩ := h
    rcases Relation.ReflTransGen.cases_head ht with rfl | ⟨u, hgoes, hu⟩
    · refine ⟨hp, fun hne => ?_⟩
      have hmore := hrest.resolve_left hne
      split at hmore
      · rename_i v hv
        exact ⟨v, hv⟩
      · cases hmore
    · have huse : useLine around fuel s.readLine.1 s.readLine.2 = some (.more, u) := hgoes
      rw [huse] at hrest
      rcases hrest with hnil | hmore
      · rw [hnil] at huse
        cases huse
      · exact ih hmore hu

/-- As long as nothing is held whenever the session takes a line, and no line ends it, all lines are used
in order and each of them once, by the session or for a `PROMPT`, and then the session says good-bye. At
any time a blank line, or one that asks for help or a clear screen, prints something and leaves all else,
and what comes later, as it is without. -/
theorem lines_are_used_once (around : Surroundings) (fuel : Nat) (files : Files.Tree)
    (stdin : List UInt8)
    (hheld : ∀ s, Visits around fuel (opening files stdin) s → s.input.ahead = [])
    (hlasts : Lasts around fuel (opening files stdin)) :
    let uses := taken around fuel (stdin.length + 1) (opening files stdin)
    (∀ (k : Nat) (use : Taken), uses[k]? = some use → use.Fits (Input.lines stdin)[k]?) ∧
    (Input.lines stdin).length ≤ uses.length ∧
    (∃ last, Visits around fuel (opening files stdin) last ∧
      run around fuel files stdin = some (none, last.readLine.2.print farewell)) ∧
    ∀ s line text, Visits around fuel (opening files stdin) s → line ≠ [] →
      Text.decode? line = some text → (Line.ofText text).Idle →
      OnlyPrints around fuel s line (Line.ofText text).printed := by
  obtain ⟨hfits, hall, hlast⟩ := uses_of_lasts around fuel files stdin hheld hlasts
  refine ⟨hfits, hall, hlast, ?_⟩
  intro s line text hvisits hline htext hidle
  exact onlyPrints_of_idle ((sound_opening files stdin).visits hvisits).unlimited.capacity hline htext hidle

theorem lines_are_used_once_five :
    let around : Surroundings := ⟨fun _ => 0, fun _ _ files => ((.exited 0, []), files)⟩
    let stdin := Text.bytes "= a 1\n:help\n \nOUTPUT + PROMPT a\nhi"
    let uses := taken around 20 (stdin.length + 1) (opening {} stdin)
    (Input.lines stdin).length = 5 ∧ Lasts around 20 (opening {} stdin) ∧
      (∀ s, Visits around 20 (opening {} stdin) s → s.input.ahead = []) ∧ 5 ≤ uses.length ∧
      (∀ (k : Nat) (use : Taken), uses[k]? = some use → use.Fits (Input.lines stdin)[k]?) ∧
      ∃ last, run around 20 {} stdin = some (none, Session.print farewell last) := by
  intro around stdin uses
  have hlines : (Input.lines stdin).length = 5 := by decide +kernel
  have hends : endsWithin (·.input.ahead.isEmpty) around 20 7 (opening {} stdin) = true := by
    decide +kernel
  obtain ⟨hp, hlasts⟩ := of_endsWithin hends
  have hheld : ∀ s, Visits around 20 (opening {} stdin) s → s.input.ahead = [] := by
    intro s hs
    exact List.isEmpty_iff.1 (hp s hs)
  obtain ⟨hfits, hall, ⟨last, -, hrun⟩, -⟩ :=
    lines_are_used_once around 20 {} stdin hheld hlasts
  rw [hlines] at hall
  exact ⟨hlines, hlasts, hheld, hall, hfits, _, hrun⟩

/-- Behind a `PROMPT`, what its reader holds is lost to the session: of three lines, two are used. -/
theorem a_line_is_lost_behind_a_prompt :
    let around : Surroundings := ⟨fun _ => 0, fun _ _ files => ((.exited 0, []), files)⟩
    let stdin := Text.bytes "OUTPUT PROMPT\nhello\nOUTPUT 2\n"
    (Input.lines stdin).length = 3 ∧ Lasts around 20 (opening {} stdin) ∧
      (taken around 20 (stdin.length + 1) (opening {} stdin)).length = 2 ∧
      (run around 20 {} stdin).map (fun r => (r.1, r.2.state.console.output.written.data.toList)) =
        some (none, Text.bytes (greeting ++ "hello\n" ++ farewell)) := by
  intro around stdin
  have hall : (Input.lines stdin).length = 3 ∧
      endsWithin (fun _ => true) around 20 4 (opening {} stdin) = true ∧
      (taken around 20 (stdin.length + 1) (opening {} stdin)).length = 2 ∧
      (run around 20 {} stdin).map (fun r => (r.1, r.2.state.console.output.written.data.toList)) =
        some (none, Text.bytes (greeting ++ "hello\n" ++ farewell)) := by decide +kernel
  obtain ⟨hlines, hends, htaken, hrun⟩ := hall
  exact ⟨hlines, (of_endsWithin hends).2, htaken, hrun⟩

end Interactive

end KnightLang
