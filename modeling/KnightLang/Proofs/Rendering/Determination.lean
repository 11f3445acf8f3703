import KnightLang.Proofs.Execution.Session
import KnightLang.Proofs.Lexing.Coverage
import KnightLang.Proofs.Rendering.Trees

namespace KnightLang

namespace Token

theorem Spells.toList_word {s : List Char} {word : String} (h : Spells s (.word word)) :
    s = word.toList := by
  generalize ht : Token.word word = t at h
  cases h with
  | word =>
    rw [Token.word.inj ht]
    simp
  | _ => cases ht

theorem spells_of_scan {source : String} {ls : List Lexeme} (h : scan source = .ok ls) {word : String}
    (hw : .word word ∈ ls.map Lexeme.token) : Spells word.toList (.word word) := by
  obtain ⟨l, hl, ht⟩ := List.mem_map.1 hw
  obtain ⟨-, s, -, -, hs, -⟩ := (scan_eq_ok_iff.1 h).exists_spelling hl
  rw [ht] at hs
  rwa [← hs.toList_word]

end Token

namespace Phrase

theorem WellFormed.spelled_build {p : Phrase} (hp : p.WellFormed)
    (hw : ∀ word, .word word ∈ p.tokens → Token.Spells word.toList (.word word)) (ws : Workspace) :
    (p.build ws).1.Spelled := by
  induction hp generalizing ws with
  | integer h => exact .literal _ (.int _)
  | text content => exact .literal _ (.str _)
  | true => exact .literal _ (.bool _)
  | false => exact .literal _ (.bool _)
  | null => exact .literal _ .null
  | name spelling => exact .var _ _
  | unary op h ih =>
    exact .unary _ op (ih (fun word hm => hw word (List.mem_cons_of_mem _ hm)) ws)
  | binary op h h' ih ih' =>
    apply Node.Spelled.binary
    · apply ih
      exact fun word hm => hw word (List.mem_cons_of_mem _ (List.mem_append_left _ hm))
    · apply ih'
      exact fun word hm => hw word (List.mem_cons_of_mem _ (List.mem_append_right _ hm))
  | @call word builtin ps hb hl h ih =>
    have hall : ∀ p ∈ ps, ∀ ws, (p.build ws).1.Spelled := by
      intro p hp
      apply ih p hp
      exact fun word hm => hw word (List.mem_cons_of_mem _ (mem_tokensAll.2 ⟨p, hp, hm⟩))
    obtain ⟨hn, hargs⟩ := forall_buildAll hall ws
    exact .call _ (hw word List.mem_cons_self) hb (hn.trans hl) hargs

end Phrase

theorem Program.spelled_of_parse {source : String} {ws ws' : Workspace} {q : Program}
    (h : parse source ws = (.ok q, ws')) : q.root.Spelled := by
  obtain ⟨ls, rest, p, hs, ⟨hp, taken, ht, hls⟩, rfl, -⟩ := exists_begins_of_parse h
  apply hp.spelled_build
  intro word hw
  apply Token.spells_of_scan hs
  rw [← hls, List.map_append, ht]
  exact List.mem_append_left _ hw

def Node.spelling : Trait where
  node := Node.Spelled
  value := Value.Spelled
  target _ := True
  scalar {v} h := by
    cases v with
    | null => exact .null
    | bool b => exact .bool b
    | int n => exact .int n
    | str s => exact .str s
    | block body => exact absurd rfl h
  block := by
    intro n
    constructor
    · rintro ⟨⟩
      assumption
    · exact .block
  literal := by
    rintro id v ⟨⟩
    assumption
  var _ := trivial
  unary := by
    rintro id op n ⟨⟩
    assumption
  binary := by
    rintro id op m n ⟨⟩
    exact ⟨‹_›, ‹_›⟩
  call := by
    rintro id word builtin args ⟨⟩
    assumption

theorem Node.enduring_spelling : Enduring fun _ => Node.spelling where
  node _ _ h := h
  target _ _ h := h
  parse := Program.spelled_of_parse

namespace Console

theorem written_of_write {text : String} {c c' : Console}
    (h : (write text).run c = (.ok (), c')) :
    c'.output.written = c.output.written ++ text.toByteArray := by
  obtain ⟨input, ⟨written, capacity, failing, flushes⟩, events, draws, commands, files⟩ := c
  simp only [write, ExceptT.run, Output.write] at h
  cases capacity with
  | none =>
    obtain ⟨-, rfl⟩ := Prod.mk.inj h
    rfl
  | some capacity =>
    by_cases hroom : text.toByteArray.size ≤ capacity - written.size
    · simp only [hroom, if_true] at h
      obtain ⟨-, rfl⟩ := Prod.mk.inj h
      rfl
    · simp only [hroom, if_false, Bool.false_eq_true] at h
      cases (Prod.mk.inj h).1

theorem written_of_flush {c c' : Console} (h : flush.run c = (.ok (), c')) :
    c'.output.written = c.output.written := by
  obtain ⟨input, output, events, draws, commands, files⟩ := c
  simp only [flush, ExceptT.run] at h
  split at h
  · obtain ⟨-, rfl⟩ := Prod.mk.inj h
    rfl
  · cases (Prod.mk.inj h).1

end Console

namespace Action

variable {α β : Type} {x : Action α} {f : α → Action β} {s t : State}

theorem exists_of_run_bind {b : β} (h : (x >>= f).run s = (.ok b, t)) :
    ∃ a u, x.run s = (.ok a, u) ∧ (f a).run u = (.ok b, t) := by
  rcases hx : x.run s with ⟨stop | a, u⟩
  · rw [run_bind_of_error hx] at h
    cases (Prod.mk.inj h).1
  · rw [run_bind_of_ok hx] at h
    exact ⟨a, u, rfl, h⟩

theorem run_of_transfer {x : ExceptT Failure (StateM Console) α} {a : α}
    (h : (transfer x).run s = (.ok a, t)) : x.run s.console = (.ok a, t.console) := by
  obtain ⟨r, u, hx, h⟩ := exists_of_run_bind h
  obtain ⟨hr, rfl⟩ := Prod.mk.inj hx
  cases r with
  | error failure => cases (Prod.mk.inj h).1
  | ok b =>
    obtain ⟨hb, rfl⟩ := Prod.mk.inj h
    obtain rfl := Except.ok.inj hb
    exact Prod.ext (Except.ok.inj hr) rfl

theorem written_of_display {text : String} {v : Value}
    (h : (display text).run s = (.ok v, t)) :
    t.console.output.written = s.console.output.written ++ text.toByteArray := by
  obtain ⟨_, u, hw, h⟩ := exists_of_run_bind h
  obtain ⟨_, w, hf, h⟩ := exists_of_run_bind h
  obtain ⟨-, rfl⟩ := Prod.mk.inj h
  rw [Console.written_of_flush (run_of_transfer hf), Console.written_of_write (run_of_transfer hw)]

end Action

def Config.Shows (around : Surroundings) (c : Config) (tree : Node) (printed : ByteArray) : Prop :=
  ∃ id word args e, c.control = .node (.call id word .dumpTree args) ∧ args[0]? = some tree ∧
    Machine.step around c = .next e ∧
    e.state.console.output.written = c.state.console.output.written ++ printed

def Config.Occurs (around : Surroundings) (c : Config) : Prop :=
  ∃ acts root ws console, root ∈ (Session.run acts).trees ∧
    Machine.Reaches around ((Session.run acts).opening root ws console) c

namespace Config

variable {around : Surroundings} {c : Config} {tree : Node} {printed : ByteArray}

theorem Shows.eq_render (h : c.Shows around tree printed) :
    printed = tree.render.toByteArray := by
  obtain ⟨control, frames, s⟩ := c
  obtain ⟨id, word, args, e, rfl, hargs, hstep, hprinted⟩ := h
  have hcall : Machine.step around ⟨.node (.call id word .dumpTree args), frames, s⟩ =
      Machine.after (Action.display tree.render) s (Machine.give · frames) := by
    change Machine.withArgument args 0 s _ = _
    unfold Machine.withArgument
    rw [hargs]
  rw [hcall] at hstep
  rcases hd : (Action.display tree.render).run s with ⟨stop | v, t⟩
  · rw [Machine.after_of_error hd] at hstep
    cases hstep
  · rw [Machine.after_of_ok hd] at hstep
    cases hstep
    exact (ByteArray.append_right_inj _).1 (hprinted.symm.trans (Action.written_of_display hd))

theorem Shows.spelled (h : c.Shows around tree printed) (hc : c.Occurs around) : tree.Spelled := by
  obtain ⟨id, word, args, e, hcontrol, hargs, -, -⟩ := h
  obtain ⟨acts, root, ws, console, hr, hreach⟩ := hc
  have hopen := (Node.enduring_spelling.run acts).opening hr ws console
  have hnode := (Node.enduring_spelling.reaches hopen hreach).control
  rw [hcontrol] at hnode
  exact Node.spelling.call hnode tree (List.mem_of_getElem? hargs)

end Config

/-- Trees whose calls are spelled as they are read have the same text exactly when they are built in the
same way, of the same operators, words, names and literal values. So the text of a program determines it,
and what `XD` prints determines its argument. -/
theorem Node.render_determines_tree :
    (∀ m n : Node, m.Spelled → n.Spelled → (m.render = n.render ↔ m.outline = n.outline)) ∧
    (∀ source source' ws ws' p q, (Program.parse source ws).1 = .ok p →
      (Program.parse source' ws').1 = .ok q → p.render = q.render →
        p.root.outline = q.root.outline) ∧
    ∀ around around' (c c' : Config) m n printed, c.Occurs around → c'.Occurs around' →
      c.Shows around m printed → c'.Shows around' n printed → m.outline = n.outline := by
  have hiff (m n : Node) (hm : m.Spelled) (hn : n.Spelled) :
      m.render = n.render ↔ m.outline = n.outline := hm.render_eq_iff hn
  refine ⟨hiff, ?_, ?_⟩
  · intro source source' ws ws' p q hp hq h
    have hp := Program.spelled_of_parse (Prod.ext hp rfl)
    have hq := Program.spelled_of_parse (Prod.ext hq rfl)
    rw [← hiff _ _ hp hq]
    have htext := congrArg String.toList h
    simpa [Program.render, String.toList_inj] using htext
  · intro around around' c c' m n printed hc hc' hm hn
    rw [← hiff m n (hm.spelled hc) (hn.spelled hc')]
    apply String.toByteArray_inj.1
    rw [← hm.eq_render, ← hn.eq_render]

theorem Node.render_determines_tree_string :
    let m : Node := .call 5 "OUT" .output [.literal 4 (.str ⟨"\") (x", .unique 7⟩)]
    let n : Node := .call 2 "OUT" .output [.literal 1 (.str ⟨"\") (x", .unique 3⟩)]
    m.render = n.render ∧ m.outline = n.outline ∧
      ∃ p q, (Program.parse "OUT('a')" .fresh).1 = .ok p ∧ (Program.parse "OUT \"a\"" .fresh).1 = .ok q ∧
        p.root.outline = q.root.outline := by
  intro m n
  have hword : Token.Spells "OUT".toList (.word "OUT") :=
    @Token.Spells.word 'O' ['U', 'T'] rfl (by decide) (by decide) (by decide)
      (List.all_eq_true.1 rfl)
  have spelled (i j k : Nat) :
      Node.Spelled (.call i "OUT" .output [.literal j (.str ⟨"\") (x", .unique k⟩)]) := by
    apply Node.Spelled.call i hword rfl rfl
    simpa using .literal j (.str _)
  have parsed (source : String)
      (h : ((Program.parse source .fresh).1.toOption.map Program.render) =
        some "(program (OUT \"a\"))") :
      ∃ p, (Program.parse source .fresh).1 = .ok p ∧ p.render = "(program (OUT \"a\"))" := by
    obtain ⟨p, hp, hr⟩ := Option.map_eq_some_iff.1 h
    refine ⟨p, ?_, hr⟩
    generalize (Program.parse source .fresh).1 = r at hp
    cases r with
    | ok q => rw [Option.some.inj hp]
    | error e => cases hp
  obtain ⟨p, hp, hpr⟩ := parsed "OUT('a')" (by decide +kernel)
  obtain ⟨q, hq, hqr⟩ := parsed "OUT \"a\"" (by decide +kernel)
  obtain ⟨htrees, hprograms, -⟩ := Node.render_determines_tree
  have houtline : m.outline = n.outline := rfl
  refine ⟨(htrees m n (spelled 5 4 7) (spelled 2 1 3)).2 houtline, houtline, p, q, hp, hq, ?_⟩
  exact hprograms _ _ _ _ p q hp hq (hpr.trans hqr.symm)

end KnightLang
