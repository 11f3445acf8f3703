import KnightLang.CommandLine.Interactive
import KnightLang.Proofs.Console.Preceding
import KnightLang.Proofs.Console.Truncation

namespace KnightLang.Interactive

variable {around : Surroundings} {fuel : Nat}

namespace Session

variable (bytes : ByteArray) (earlier : List Event) (errors : String)

def preceded (s : Session) : Session := ⟨s.state.preceded bytes earlier, errors ++ s.errors⟩

theorem print_preceded (text : String) (s : Session) :
    (s.preceded bytes earlier errors).print text = (s.print text).preceded bytes earlier errors := by
  have hw : Console.write text (s.state.console.preceded bytes earlier) = _ :=
    Console.write_preceded bytes earlier text s.state.console
  unfold print
  simp only [preceded, State.preceded, hw]
  rfl

theorem printError_preceded (text : String) (s : Session) :
    (s.preceded bytes earlier errors).printError text =
      (s.printError text).preceded bytes earlier errors := by
  unfold printError
  simp only [preceded, String.append_assoc]

theorem readLine_preceded (s : Session) : (s.preceded bytes earlier errors).readLine =
    (s.readLine.1, s.readLine.2.preceded bytes earlier errors) := rfl

theorem exists_eq_preceded (s : Session) (h : s.state.console.output.capacity = none) :
    ∃ u : Session, s = u.preceded s.state.console.output.written s.state.console.events s.errors ∧
      ∀ text, s.print text = u.preceded (s.state.console.output.written ++ text.toByteArray)
        s.state.console.events s.errors := by
  obtain ⟨⟨ws, ⟨input, ⟨written, capacity, failing, flushes⟩, events, draws, commands, files⟩⟩,
    errors⟩ := s
  obtain rfl : capacity = none := h
  refine ⟨⟨⟨ws, ⟨input, ⟨.empty, none, failing, flushes⟩, [], draws, commands, files⟩⟩, ""⟩, ?_, ?_⟩
  · simp [preceded, State.preceded, Console.preceded, Output.preceded]
  · intro text
    simp [preceded, State.preceded, Console.preceded, Output.preceded, print, Console.write,
      Output.write]

end Session

section

variable (bytes : ByteArray) (earlier : List Event) (errors : String)

theorem evaluate_preceded (source : String) (s : Session) :
    evaluate around fuel source (s.preceded bytes earlier errors) =
      (evaluate around fuel source s).map fun r => (r.1, r.2.preceded bytes earlier errors) := by
  have hws : (s.preceded bytes earlier errors).state.workspace = s.state.workspace := rfl
  have error (text : String) (u : Session) :
      some (Next.more, (u.preceded bytes earlier errors).printError text) =
        some (.more, (u.printError text).preceded bytes earlier errors) := by
    rw [Session.printError_preceded]
  have shown (next : Next) (text : String) (u : Session) :
      some (next, (u.preceded bytes earlier errors).print text) =
        some (next, (u.print text).preceded bytes earlier errors) := by
    rw [Session.print_preceded]
  unfold evaluate
  rw [hws]
  rcases Program.parse source s.state.workspace with ⟨e | q, ws⟩
  · exact error _ { s with state := { s.state with workspace := ws } }
  · have hrun := (State.unseen_preceded bytes earlier).execute around fuel q ⟨ws, s.state.console⟩
    have hstate : (⟨ws, (s.preceded bytes earlier errors).state.console⟩ : State) =
      State.preceded bytes earlier ⟨ws, s.state.console⟩ := rfl
    dsimp only
    rw [hstate, hrun]
    rcases q.execute around fuel ⟨ws, s.state.console⟩ with _ | ⟨result, t⟩
    · rfl
    · let u : Session := ⟨t, s.errors⟩
      rcases result with stop | v
      · cases stop with
        | panic p => rfl
        | error e =>
          cases e with
          | quit code => exact shown _ _ u
          | _ => exact error _ u
      · cases v with
        | null => rfl
        | _ => exact shown _ _ u

theorem useLine_preceded (line : List UInt8) (s : Session) :
    useLine around fuel line (s.preceded bytes earlier errors) =
      (useLine around fuel line s).map fun r => (r.1, r.2.preceded bytes earlier errors) := by
  have shown (next : Next) (text : String) : some (next, (s.preceded bytes earlier errors).print text) =
      some (next, (s.print text).preceded bytes earlier errors) := by
    rw [Session.print_preceded]
  unfold useLine
  by_cases hline : line.isEmpty
  · rw [if_pos hline, if_pos hline]
    exact shown _ _
  · rw [if_neg hline, if_neg hline]
    cases Text.decode? line with
    | none =>
      have herror := Session.printError_preceded bytes earlier errors
        ("Error: " ++ Failure.invalidText.reason ++ "\n") s
      exact congrArg (fun u => some (Next.finished, u)) herror
    | some text =>
      dsimp only
      cases Line.ofText text with
      | blank => rfl
      | quit => exact shown _ _
      | help => exact shown _ _
      | clear => exact shown _ _
      | program source => exact evaluate_preceded bytes earlier errors source s

theorem useLines_preceded (lines : Nat) (s : Session) :
    useLines around fuel lines (s.preceded bytes earlier errors) =
      (useLines around fuel lines s).map fun r => (r.1, r.2.preceded bytes earlier errors) := by
  induction lines generalizing s with
  | zero => rfl
  | succ lines ih =>
    unfold useLines
    rw [Session.readLine_preceded]
    dsimp only
    rw [useLine_preceded]
    rcases useLine around fuel s.readLine.1 s.readLine.2 with _ | ⟨_ | _ | p, t⟩
    · rfl
    · exact ih t
    · rfl
    · rfl

end

def Line.Idle : Line → Prop
  | .blank | .help | .clear => True
  | .quit | .program _ => False

def Line.printed : Line → String
  | .help => Interactive.help
  | .clear => clearScreen
  | .blank | .quit | .program _ => ""

theorem Session.print_empty (s : Session) : s.print "" = s := by
  obtain ⟨⟨ws, ⟨input, output, events, draws, commands, files⟩⟩, errors⟩ := s
  have hw : output.write "".toByteArray = (true, output) := output.write_empty
  simp only [print, Console.write, hw]

theorem useLine_of_idle {line : List UInt8} {text : String} (hline : line ≠ [])
    (htext : Text.decode? line = some text) (hidle : (Line.ofText text).Idle) (s : Session) :
    useLine around fuel line s = some (.more, s.print (Line.ofText text).printed) := by
  have hempty : ¬ line.isEmpty := by simpa using hline
  unfold useLine
  rw [if_neg hempty, htext]
  dsimp only
  cases hl : Line.ofText text with
  | blank => rw [Line.printed, Session.print_empty]
  | help => rfl
  | clear => rfl
  | quit =>
    rw [hl] at hidle
    exact hidle.elim
  | program source =>
    rw [hl] at hidle
    exact hidle.elim

/-- All that a line does to a session is that it prints a text. Later lines do with it what they do without
it, `r`, behind an output with that text and one without. -/
structure OnlyPrints (around : Surroundings) (fuel : Nat) (s : Session) (line : List UInt8)
    (text : String) : Prop where
  step : useLine around fuel line s = some (.more, s.print text)
  workspace : (s.print text).state.workspace = s.state.workspace
  later (lines : Nat) : ∃ r : Option (Option Panic × Session),
    let written := s.state.console.output.written
    let earlier := s.state.console.events
    useLines around fuel lines s =
      r.map (fun r => (r.1, r.2.preceded written earlier s.errors)) ∧
    useLines around fuel lines (s.print text) =
      r.map (fun r => (r.1, r.2.preceded (written ++ text.toByteArray) earlier s.errors))

theorem onlyPrints_of_idle {s : Session} {line : List UInt8} {text : String}
    (hs : s.state.console.output.capacity = none) (hline : line ≠ [])
    (htext : Text.decode? line = some text) (hidle : (Line.ofText text).Idle) :
    OnlyPrints around fuel s line (Line.ofText text).printed where
  step := useLine_of_idle hline htext hidle s
  workspace := rfl
  later lines := by
    obtain ⟨u, hu, hprint⟩ := s.exists_eq_preceded hs
    refine ⟨useLines around fuel lines u, ?_, ?_⟩
    · conv_lhs => rw [hu]
      exact useLines_preceded _ _ _ lines u
    · rw [hprint]
      exact useLines_preceded _ _ _ lines u

end KnightLang.Interactive
