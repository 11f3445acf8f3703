import KnightLang.Proofs.Arithmetic.Numerals
import KnightLang.Proofs.Rendering.Expression
import KnightLang.Tree.Render

namespace KnightLang

mutual

/-- All calls in a value have a word that is read as their function, and as many arguments as it takes. -/
inductive Value.Spelled : Value → Prop
  | null : Value.Spelled .null
  | bool (b : Bool) : Value.Spelled (.bool b)
  | int (n : Int64) : Value.Spelled (.int n)
  | str (s : Str) : Value.Spelled (.str s)
  | block {body : Node} (h : Node.Spelled body) : Value.Spelled (.block body)

inductive Node.Spelled : Node → Prop
  | literal (id : Nat) {v : Value} (h : Value.Spelled v) : Node.Spelled (.literal id v)
  | var (id : Nat) (v : Variable) : Node.Spelled (.var id v)
  | unary (id : Nat) (op : UnaryOp) {n : Node} (h : Node.Spelled n) : Node.Spelled (.unary id op n)
  | binary (id : Nat) (op : BinaryOp) {m n : Node} (h : Node.Spelled m) (h' : Node.Spelled n) :
      Node.Spelled (.binary id op m n)
  | call (id : Nat) {word : String} {builtin : Builtin} {args : List Node}
      (hs : Token.Spells word.toList (.word word)) (hw : Builtin.ofWord? word = some builtin)
      (hl : args.length = builtin.arity) (h : ∀ n ∈ args, Node.Spelled n) :
      Node.Spelled (.call id word builtin args)

end

mutual

def Value.outline : Value → Value
  | .null => .null
  | .bool b => .bool b
  | .int n => .int n
  | .str s => .str ⟨s.text, .unique 0⟩
  | .block body => .block body.outline

/-- What a tree is made of: operators, words, names of variables and literal values. -/
def Node.outline : Node → Node
  | .literal _ value => .literal 0 value.outline
  | .var _ v => .var 0 ⟨v.name, 0⟩
  | .unary _ op operand => .unary 0 op operand.outline
  | .binary _ op left right => .binary 0 op left.outline right.outline
  | .call _ word builtin args => .call 0 word builtin (Node.outlineAll args)

def Node.outlineAll : List Node → List Node
  | [] => []
  | n :: ns => n.outline :: Node.outlineAll ns

end

mutual

def Value.sexp : Value → Sexp
  | .null => .bare "null".toList
  | .bool b => .bare (boolText b).toList
  | .int n => .bare (Decimal.ofInt n.toInt).toList
  | .str s => .quoted s.text
  | .block body => .form "block".toList [body.sexp]

def Node.sexp : Node → Sexp
  | .literal _ value => value.sexp
  | .var _ v => .form "var".toList [.quoted v.name]
  | .unary _ op operand => .form op.name.toList [operand.sexp]
  | .binary _ op left right => .form op.name.toList [left.sexp, right.sexp]
  | .call _ word _ args =>
    if args.isEmpty then .bare word.toList else .form word.toList (Node.sexpAll args)

def Node.sexpAll : List Node → List Sexp
  | [] => []
  | n :: ns => n.sexp :: Node.sexpAll ns

end

namespace Sexp

def unaryOp? : String → Option UnaryOp
  | "not" => some .not
  | "noop" => some .noop
  | "system" => some .system
  | _ => none

def binaryOp? : String → Option BinaryOp
  | "and" => some .and
  | "or" => some .or
  | "add" => some .add
  | "sub" => some .sub
  | "mul" => some .mul
  | "div" => some .div
  | "mod" => some .mod
  | "exp" => some .exp
  | "less" => some .less
  | "greater" => some .greater
  | "equal" => some .equal
  | "assign" => some .assign
  | "chain" => some .chain
  | _ => none

def atomTree (text : String) : Node :=
  match Builtin.ofWord? text with
  | some builtin => .call 0 text builtin []
  | none =>
    .literal 0 <| match text with
      | "null" => .null
      | "true" => .bool true
      | "false" => .bool false
      | _ => .int (Decimal.leading text)

def formTree? (head : String) (args : List Node) : Option Node :=
  match Builtin.ofWord? head with
  | some builtin => some (.call 0 head builtin args)
  | none =>
    match head, args with
    | "var", [.literal _ (.str s)] => some (.var 0 ⟨s.text, 0⟩)
    | "block", [body] => some (.literal 0 (.block body))
    | name, [operand] => (unaryOp? name).map (.unary 0 · operand)
    | name, [left, right] => (binaryOp? name).map (.binary 0 · left right)
    | _, _ => none

mutual

def tree? : Sexp → Option Node
  | bare cs => some (atomTree (String.ofList cs))
  | quoted text => some (.literal 0 (.str ⟨text, .unique 0⟩))
  | form head args => do formTree? (String.ofList head) (← trees? args)

def trees? : List Sexp → Option (List Node)
  | [] => some []
  | e :: es => do return (← e.tree?) :: (← trees? es)

end

end Sexp

mutual

theorem Value.toList_render : (v : Value) → v.render.toList = v.sexp.print
  | .null => rfl
  | .bool b => rfl
  | .int n => rfl
  | .str s => rfl
  | .block body => by
    simp [Value.render, Value.sexp, Sexp.print, Sexp.printAll, body.toList_render]

theorem Node.toList_render : (n : Node) → n.render.toList = n.sexp.print
  | .literal _ value => value.toList_render
  | .var _ v => by simp [Node.render, Node.sexp, Sexp.print, Sexp.printAll]
  | .unary _ op operand => by
    simp [Node.render, Node.sexp, Sexp.print, Sexp.printAll, operand.toList_render]
  | .binary _ op left right => by
    simp [Node.render, Node.sexp, Sexp.print, Sexp.printAll, left.toList_render, right.toList_render]
  | .call _ word builtin args => by
    unfold Node.render Node.sexp
    cases args with
    | nil => rfl
    | cons n ns =>
      have h := Node.toList_renderAll (n :: ns)
      simp [Sexp.print, h]

theorem Node.toList_renderAll : (ns : List Node) →
    (Node.renderAll ns).toList = Sexp.printAll (Node.sexpAll ns)
  | [] => rfl
  | n :: ns => by
    simp [Node.renderAll, Node.sexpAll, Sexp.printAll, n.toList_render, Node.toList_renderAll ns]

end

mutual

theorem Value.render_outline : (v : Value) → v.outline.render = v.render
  | .null => rfl
  | .bool b => rfl
  | .int n => rfl
  | .str s => rfl
  | .block body => by simp only [Value.outline, Value.render, body.render_outline]

theorem Node.render_outline : (n : Node) → n.outline.render = n.render
  | .literal _ value => value.render_outline
  | .var _ v => rfl
  | .unary _ op operand => by simp only [Node.outline, Node.render, operand.render_outline]
  | .binary _ op left right => by
    simp only [Node.outline, Node.render, left.render_outline, right.render_outline]
  | .call _ word builtin args => by
    -- whether there are brackets depends on whether there are arguments, in the outline as in the tree
    unfold Node.outline Node.render
    cases args with
    | nil => rfl
    | cons n ns =>
      have h := Node.renderAll_outline (n :: ns)
      rw [Node.outlineAll] at h ⊢
      rw [h]
      rfl

theorem Node.renderAll_outline : (ns : List Node) →
    Node.renderAll (Node.outlineAll ns) = Node.renderAll ns
  | [] => rfl
  | n :: ns => by
    simp only [Node.outlineAll, Node.renderAll, n.render_outline, Node.renderAll_outline ns]

end

theorem isBare_of_alphanum {c : Char} (h : c.isAlphanum ∨ c = '_') : Sexp.isBare c := by
  by_contra hc
  rw [Sexp.isBare, Bool.not_eq_true, Bool.not_eq_false', List.contains_iff_mem] at hc
  revert h
  fin_cases hc <;> decide

theorem Token.Spells.isBare_word {word : String} (h : Token.Spells word.toList (.word word)) :
    word.toList ≠ [] ∧ ∀ c ∈ word.toList, Sexp.isBare c := by
  generalize hcs : word.toList = cs at h
  generalize ht : Token.word word = t at h
  cases h with
  | word hc hT hF hN h =>
    refine ⟨List.cons_ne_nil _ _, List.forall_mem_cons.2 ⟨?_, ?_⟩⟩
    · exact isBare_of_alphanum (.inl (Token.isAlphanum_iff.2 (.inl hc)))
    · intro d hd
      have hd := h d hd
      simp only [Token.continuesWord, Bool.or_eq_true, decide_eq_true_eq] at hd
      exact isBare_of_alphanum (hd.imp_left fun hu => Token.isAlphanum_iff.2 (.inl hu))
  | _ => cases ht

namespace Sexp

theorem proper_ofInt (n : Int) : (bare (Decimal.ofInt n).toList).Proper := by
  have digits : ∀ c ∈ Nat.toDigits 10 n.natAbs, isBare c := by
    intro c hc
    have hd := Decimal.isDigit_of_mem_toDigits hc
    exact isBare_of_alphanum (.inl (Token.isAlphanum_iff.2 (.inr (.inr hd))))
  rcases Decimal.toList_ofInt n with ⟨-, h⟩ | ⟨-, h⟩
  · rw [h]
    exact .bare Nat.toDigits_ne_nil digits
  · rw [h]
    exact .bare (List.cons_ne_nil _ _) (List.forall_mem_cons.2 ⟨rfl, digits⟩)

theorem proper_sexpAll {ns : List Node} (h : ∀ n ∈ ns, n.sexp.Proper) :
    ∀ e ∈ Node.sexpAll ns, e.Proper := by
  induction ns with
  | nil => exact nofun
  | cons n ns ih =>
    rw [List.forall_mem_cons] at h
    exact List.forall_mem_cons.2 ⟨h.1, ih h.2⟩

end Sexp

mutual

theorem Value.Spelled.proper_sexp : {v : Value} → v.Spelled → v.sexp.Proper
  | _, .null => .bare (by decide) (List.all_eq_true.1 rfl)
  | _, .bool b => by cases b <;> exact .bare (by decide) (List.all_eq_true.1 rfl)
  | _, .int n => Sexp.proper_ofInt n.toInt
  | _, .str s => .quoted s.text
  | _, .block h => .form (List.all_eq_true.1 rfl) (by simpa using h.proper_sexp)

theorem Node.Spelled.proper_sexp : {n : Node} → n.Spelled → n.sexp.Proper
  | _, .literal _ h => h.proper_sexp
  | _, .var _ v => .form (List.all_eq_true.1 rfl) (by simpa using .quoted v.name)
  | _, .unary _ op h => by
    have hname : ∀ c ∈ op.name.toList, Sexp.isBare c := by
      cases op <;> exact List.all_eq_true.1 rfl
    exact .form hname (by simpa using h.proper_sexp)
  | _, .binary _ op h h' => by
    have hname : ∀ c ∈ op.name.toList, Sexp.isBare c := by
      cases op <;> exact List.all_eq_true.1 rfl
    exact .form hname (by simpa using ⟨h.proper_sexp, h'.proper_sexp⟩)
  | .call _ word _ args, .call _ hs hw hl h => by
    obtain ⟨hne, hword⟩ := hs.isBare_word
    have hargs := Sexp.proper_sexpAll fun n hn => (h n hn).proper_sexp
    unfold Node.sexp
    split
    · exact .bare hne hword
    · exact .form hword hargs

end

namespace Sexp

theorem trees?_sexpAll {ns : List Node} (h : ∀ n ∈ ns, n.sexp.tree? = some n.outline) :
    trees? (Node.sexpAll ns) = some (Node.outlineAll ns) := by
  induction ns with
  | nil => rfl
  | cons n ns ih =>
    rw [List.forall_mem_cons] at h
    simp [Node.sexpAll, trees?, Node.outlineAll, h.1, ih h.2]

theorem atomTree_word {word : String} {builtin : Builtin} (h : Builtin.ofWord? word = some builtin) :
    atomTree word = .call 0 word builtin [] := by
  simp [atomTree, h]

theorem atomTree_ofInt (n : Int64) : atomTree (Decimal.ofInt n.toInt) = .literal 0 (.int n) := by
  obtain ⟨c, cs, h, hc⟩ : ∃ c cs, (Decimal.ofInt n.toInt).toList = c :: cs ∧
      (c.isDigit ∨ c = '-') := by
    rcases Decimal.toList_ofInt n.toInt with ⟨-, h⟩ | ⟨-, h⟩
    · obtain ⟨c, cs, hcs, -⟩ := Decimal.toDigits_eq_cons n.toInt.natAbs
      refine ⟨c, cs, h.trans hcs, .inl ?_⟩
      exact Decimal.isDigit_of_mem_toDigits (hcs ▸ List.mem_cons_self)
    · exact ⟨_, _, h, .inr rfl⟩
  -- neither a word nor one of the three other atoms begins like a number
  have hword : Builtin.ofWord? (Decimal.ofInt n.toInt) = none := by
    unfold Builtin.ofWord?
    rw [h]
    split <;> simp_all
  have hne (text : String) (ht : ∀ d ∈ text.toList.head?, d.isDigit = false ∧ d ≠ '-') :
      Decimal.ofInt n.toInt ≠ text := by
    rintro rfl
    rw [h] at ht
    have := ht c rfl
    simp_all
  have hnull := hne "null" (by simp)
  have htrue := hne "true" (by simp)
  have hfalse := hne "false" (by simp)
  simp only [atomTree, hword, Decimal.leading_ofInt]

theorem formTree?_unary (op : UnaryOp) (n : Node) :
    formTree? op.name [n] = some (.unary 0 op n) := by
  cases op <;> rfl

theorem formTree?_binary (op : BinaryOp) (m n : Node) :
    formTree? op.name [m, n] = some (.binary 0 op m n) := by
  cases op <;> rfl

end Sexp

mutual

theorem Value.Spelled.tree?_sexp : {v : Value} → v.Spelled →
    v.sexp.tree? = some (.literal 0 v.outline)
  | _, .null => rfl
  | _, .bool b => by cases b <;> rfl
  | _, .int n => by simp [Value.sexp, Sexp.tree?, Sexp.atomTree_ofInt, Value.outline]
  | _, .str s => rfl
  | _, .block h => by
    simp only [Value.sexp, Sexp.tree?, Sexp.trees?, h.tree?_sexp, String.ofList_toList]
    rfl

theorem Node.Spelled.tree?_sexp : {n : Node} → n.Spelled → n.sexp.tree? = some n.outline
  | _, .literal _ h => h.tree?_sexp
  | _, .var _ v => rfl
  | _, .unary _ op h => by
    simp only [Node.sexp, Sexp.tree?, Sexp.trees?, h.tree?_sexp, String.ofList_toList]
    exact Sexp.formTree?_unary op _
  | _, .binary _ op h h' => by
    simp only [Node.sexp, Sexp.tree?, Sexp.trees?, h.tree?_sexp, h'.tree?_sexp, String.ofList_toList]
    exact Sexp.formTree?_binary op _ _
  | .call _ word _ args, .call _ hs hw hl h => by
    have hargs := Sexp.trees?_sexpAll fun n hn => (h n hn).tree?_sexp
    unfold Node.sexp
    cases args with
    | nil => simp [Sexp.tree?, Sexp.atomTree_word hw, Node.outline, Node.outlineAll]
    | cons m ms => simp [Sexp.tree?, Sexp.formTree?, hargs, hw, Node.outline]

end

theorem Node.Spelled.render_eq_iff {m n : Node} (hm : m.Spelled) (hn : n.Spelled) :
    m.render = n.render ↔ m.outline = n.outline := by
  constructor
  · intro h
    have hprint : m.sexp.print = n.sexp.print := by
      rw [← m.toList_render, ← n.toList_render, h]
    have hsexp := hm.proper_sexp.print_inj hn.proper_sexp hprint
    have htree := hm.tree?_sexp
    rw [hsexp, hn.tree?_sexp] at htree
    exact (Option.some.inj htree).symm
  · intro h
    rw [← m.render_outline, ← n.render_outline, h]

end KnightLang
