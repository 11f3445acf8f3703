import KnightLang.Proofs.Lockstep.Past
import KnightLang.Proofs.Lockstep.Twins

namespace KnightLang

namespace Past

theorem Sound.alike_fresh {p q : Past} {E F : Set Str} (hp : p.Sound E) (hq : q.Sound F) :
    p.fresh.Alike .twins (q.nextNode - p.nextNode) (fun _ _ => False) q.fresh := by
  obtain ⟨E', hE, ho⟩ := hp.strings
  obtain ⟨F', hF, ho'⟩ := hq.strings
  refine ⟨⟨E', F', Interner.twins_of_sound hE hF (ho.trans ho'.symm)⟩, matches_empty, ?_⟩
  simp only [Apart, fresh, workspace]
  omega

/-- Whatever two processes have done, a source that leaves them tags has one answer in both: one error,
panic or value as it is shown, the same bytes and flushes, and as many variables and programs. -/
theorem cache_unobservable (deeds deeds' : List Deed) (around : Surroundings) (console : Console)
    (fuel : Nat) (source : String)
    (h : (supply ((run deeds).fresh.launch around console fuel source).2).TagsLeft)
    (h' : (supply ((run deeds').fresh.launch around console fuel source).2).TagsLeft) :
    (run deeds).fresh.answer? around console fuel source =
      (run deeds').fresh.answer? around console fuel source := by
  obtain ⟨E, hE⟩ := sound_run deeds
  obtain ⟨F, hF⟩ := sound_run deeds'
  exact Workspace.answer?_eq Link.lawful_twins around console fuel source (hE.alike_fresh hF)
    (fun _ => h) (fun _ => h')

theorem cache_unobservable_eval :
    let around : Surroundings := ⟨fun _ => 0, fun _ _ files => ((.exited 0, []), files)⟩
    let deeds : List Deed := [.use (.create { maxLength := 2 }), .use (.ask 0 (.text "+ 1 1")),
      .openStore, .assign 0 "a" 0, .parse 0 "OUTPUT EVAL a", .execute 0 around {} 100]
    let source := "; = a \"+ 1 1\" ; OUTPUT EVAL a : EVAL (+ \"+ 1\" \" 1\")"
    let answer? (deeds : List Deed) := (run deeds).fresh.answer? around {} 100 source
    let left (deeds : List Deed) :=
      (supply ((run deeds).fresh.launch around {} 100 source).2).TagsLeft
    left [] ∧ left deeds ∧ answer? [] = answer? deeds := by
  intro around deeds source answer? left
  have h : left [] := by decide +kernel
  have h' : left deeds := by decide +kernel
  exact ⟨h, h', cache_unobservable [] deeds around {} 100 source h h'⟩

end Past

end KnightLang
