import Cascade.Hook
import Cascade.Proofs.HookId.Fingerprint
import Mathlib.Data.List.Infix
import Mathlib.Logic.Relation

/-!
# Hooks that share an identifier

Two texts are alike if they have as many code units and the same fingerprint, once they
are escaped as they would be between quotes. Escaping, the units of a text and its
fingerprint all go along with putting texts in a row, so texts that are alike stay alike
whatever is put around them (`Alike.around`), and the hooks they belong to share an
identifier.

`Aa` and `BB` are alike. A pattern in which `Aa` stands at some places has a respelling
for every choice of those places, all with one identifier.
-/

namespace Cascade

namespace Text

/-- A text as it stands between the quotes. -/
def escaped (s : String) : String := String.ofList (s.toList.flatMap escapeChar)

@[simp] theorem escaped_append (s t : String) : escaped (s ++ t) = escaped s ++ escaped t := by
  simp [escaped]

theorem quoted_eq (s : String) : quoted s = "\"" ++ escaped s ++ "\"" := by
  apply String.toList_injective
  simp [quoted, escaped]

end Text

namespace HookId

/-! ## Texts that are alike -/

/-- The texts have as many units and the same fingerprint between quotes. -/
structure Alike (x y : String) : Prop where
  length_eq : (Text.units (Text.escaped x)).length = (Text.units (Text.escaped y)).length
  fingerprint_eq : fingerprint (Text.escaped x) = fingerprint (Text.escaped y)

theorem Alike.refl (x : String) : Alike x x := ⟨rfl, rfl⟩

/-- Fingerprints of two texts in a row are the same if those of the texts are, and the
second ones are of the same length. -/
theorem fingerprint_append_congr {p p' x x' : String} (hp : fingerprint p = fingerprint p')
    (hlength : (Text.units x).length = (Text.units x').length)
    (hx : fingerprint x = fingerprint x') : fingerprint (p ++ x) = fingerprint (p' ++ x') := by
  rw [← UInt32.toNat_inj, toNat_fingerprint_append, toNat_fingerprint_append, hp, hlength, hx]

theorem Alike.append {x y x' y' : String} (h : Alike x y) (h' : Alike x' y') :
    Alike (x ++ x') (y ++ y') where
  length_eq := by
    rw [Text.escaped_append, Text.escaped_append, Text.units_append, Text.units_append,
      List.length_append, List.length_append, h.length_eq, h'.length_eq]
  fingerprint_eq := by
    rw [Text.escaped_append, Text.escaped_append]
    exact fingerprint_append_congr h.fingerprint_eq h'.length_eq h'.fingerprint_eq

/-- Texts that are alike can stand for one another anywhere. -/
theorem Alike.around {x y : String} (h : Alike x y) (p q : String) :
    Alike (p ++ x ++ q) (p ++ y ++ q) :=
  ((Alike.refl p).append h).append (.refl q)

theorem Alike.ofText_eq {x y : String} (h : Alike x y) : ofText x = ofText y := by
  have hopen : fingerprint ("\"" ++ Text.escaped x) = fingerprint ("\"" ++ Text.escaped y) :=
    fingerprint_append_congr rfl h.length_eq h.fingerprint_eq
  have hquoted : fingerprint (Text.quoted x) = fingerprint (Text.quoted y) := by
    rw [Text.quoted_eq, Text.quoted_eq]
    exact fingerprint_append_congr hopen rfl rfl
  rw [ofText, ofText, hquoted]

theorem alike_Aa_BB : Alike "Aa" "BB" := ⟨by decide, by decide⟩

/-! ## Respellings -/

/-- One `Aa` of the first text is `BB` in the second. -/
def Respells (s t : String) : Prop := ∃ p q, s = p ++ "Aa" ++ q ∧ t = p ++ "BB" ++ q

/-- At how many places of a text `Aa` stands. -/
def places (s : String) : Nat := s.toList.tails.countP fun tail => ['A', 'a'].isPrefixOf tail

theorem Respells.ofText_eq {s t : String} (h : Respells s t) : ofText s = ofText t := by
  obtain ⟨p, q, rfl, rfl⟩ := h
  exact (alike_Aa_BB.around p q).ofText_eq

theorem Respells.placeholder_mem {s t : String} (h : Respells s t)
    (hmem : Hook.placeholder ∈ s.toList) : Hook.placeholder ∈ t.toList := by
  obtain ⟨p, q, rfl, rfl⟩ := h
  simp only [String.toList_append, List.mem_append] at hmem ⊢
  have hnot : Hook.placeholder ∉ "Aa".toList := by decide
  rcases hmem with (hp | hAa) | hq
  · exact .inl (.inl hp)
  · exact absurd hAa hnot
  · exact .inr hq

/-- What a single replacement keeps, any number of them keep. -/
theorem ofText_eq_of_respells {s t : String} (h : Relation.ReflTransGen Respells s t) :
    ofText s = ofText t ∧ (Hook.placeholder ∈ s.toList → Hook.placeholder ∈ t.toList) := by
  induction h with
  | refl => exact ⟨rfl, fun hmem => hmem⟩
  | tail _ hstep ih =>
    exact ⟨ih.1.trans hstep.ofText_eq, fun hmem => hstep.placeholder_mem (ih.2 hmem)⟩

theorem respells_append_left (r : String) {s t : String}
    (h : Relation.ReflTransGen Respells s t) :
    Relation.ReflTransGen Respells (r ++ s) (r ++ t) := by
  apply h.lift (r ++ ·)
  intro a b hab
  obtain ⟨p, q, rfl, rfl⟩ := hab
  exact ⟨r ++ p, q, by simp only [String.append_assoc], by simp only [String.append_assoc]⟩

/-- The respellings of a text: every `Aa` is kept or replaced. -/
def respellings : List Char → List String
  | 'A' :: 'a' :: cs => (respellings cs).map ("Aa" ++ ·) ++ (respellings cs).map ("BB" ++ ·)
  | c :: cs => (respellings cs).map (String.singleton c ++ ·)
  | [] => [""]

theorem respells_of_mem_respellings {cs : List Char} {t : String} (h : t ∈ respellings cs) :
    Relation.ReflTransGen Respells (String.ofList cs) t := by
  fun_induction respellings cs generalizing t with
  | case1 cs ih =>
    have hcs : String.ofList ('A' :: 'a' :: cs) = "Aa" ++ String.ofList cs := by
      apply String.toList_injective
      simp
    rw [hcs]
    rw [List.mem_append, List.mem_map, List.mem_map] at h
    rcases h with ⟨u, hu, rfl⟩ | ⟨u, hu, rfl⟩
    · exact respells_append_left "Aa" (ih hu)
    · have hfirst : Respells ("Aa" ++ String.ofList cs) ("BB" ++ String.ofList cs) :=
        ⟨"", String.ofList cs, by simp, by simp⟩
      exact .head hfirst (respells_append_left "BB" (ih hu))
  | case2 c cs _ ih =>
    have hcs : String.ofList (c :: cs) = String.singleton c ++ String.ofList cs := by
      apply String.toList_injective
      simp
    obtain ⟨u, hu, rfl⟩ := List.mem_map.1 h
    rw [hcs]
    exact respells_append_left (String.singleton c) (ih hu)
  | case3 =>
    rw [List.mem_singleton] at h
    rw [h]

theorem length_respellings (cs : List Char) :
    (respellings cs).length = 2 ^ places (String.ofList cs) := by
  unfold places
  rw [String.toList_ofList]
  fun_induction respellings cs with
  | case1 cs ih =>
    rw [List.length_append, List.length_map, List.length_map, ih, List.tails_cons, List.tails_cons,
      List.countP_cons_of_pos (by simp), List.countP_cons_of_neg (by simp), pow_succ]
    omega
  | case2 c cs hnot ih =>
    have hhere : ¬['A', 'a'].isPrefixOf (c :: cs) = true := by
      rw [List.isPrefixOf_iff_prefix]
      intro hstart
      obtain ⟨rest, hrest⟩ := hstart
      simp only [List.cons_append, List.nil_append, List.cons.injEq] at hrest
      exact hnot rest hrest.1.symm hrest.2.symm
    rw [List.length_map, ih, List.tails_cons, List.countP_cons_of_neg hhere]
  | case3 => rfl

theorem nodup_respellings (cs : List Char) : (respellings cs).Nodup := by
  have hinj (p : String) : Function.Injective (p ++ ·) := fun s t h => (String.append_right_inj p).1 h
  fun_induction respellings cs with
  | case1 cs ih =>
    refine List.Nodup.append (ih.map (hinj "Aa")) (ih.map (hinj "BB")) ?_
    intro t hAa hBB
    obtain ⟨u, -, rfl⟩ := List.mem_map.1 hAa
    obtain ⟨v, -, hv⟩ := List.mem_map.1 hBB
    simpa using congrArg String.toList hv
  | case2 c cs _ ih => exact ih.map (hinj (String.singleton c))
  | case3 => exact List.nodup_singleton ""

/-! ## Collisions -/

/-- Hooks whose texts differ in a part only, and there by texts with as many units and the
same fingerprint between quotes, share their identifier. This is so of `Aa` and `BB`. A
pattern with `Aa` at some places has as many respellings as there are sets of these
places; they are patterns of different hooks, all with the identifier of the pattern. -/
theorem id_eq_of_alike :
    (∀ p q x y : String,
      (Text.units (Text.escaped x)).length = (Text.units (Text.escaped y)).length →
      fingerprint (Text.escaped x) = fingerprint (Text.escaped y) →
      ∀ a b : Hook, a.text = p ++ x ++ q → b.text = p ++ y ++ q → a.id = b.id) ∧
    (∀ (p q : String) (a b : Hook),
      a.text = p ++ "Aa" ++ q → b.text = p ++ "BB" ++ q → a.id = b.id) ∧
    ∀ s, Hook.placeholder ∈ s.toList →
      ∃ hooks : List Hook, hooks.Nodup ∧ hooks.length = 2 ^ places s ∧
        ∀ hook ∈ hooks, hook.id = (Hook.selector s).id ∧
          ∃ t, Relation.ReflTransGen Respells s t ∧ Hook.ofPattern t = .ok hook := by
  have halike (p q x y : String) (h : Alike x y) (a b : Hook) (ha : a.text = p ++ x ++ q)
      (hb : b.text = p ++ y ++ q) : a.id = b.id := by
    rw [Hook.id, Hook.id, ha, hb]
    exact (h.around p q).ofText_eq
  refine ⟨?_, ?_, ?_⟩
  · intro p q x y hlength hfingerprint
    exact halike p q x y ⟨hlength, hfingerprint⟩
  · intro p q
    exact halike p q "Aa" "BB" alike_Aa_BB
  · intro s hplaceholder
    refine ⟨(respellings s.toList).map Hook.selector, ?_, ?_, ?_⟩
    · exact (nodup_respellings s.toList).map fun t u h => Hook.selector.inj h
    · rw [List.length_map, length_respellings, String.ofList_toList]
    · intro hook hhook
      obtain ⟨t, ht, rfl⟩ := List.mem_map.1 hhook
      have hrespells := respells_of_mem_respellings ht
      rw [String.ofList_toList] at hrespells
      obtain ⟨hid, hmem⟩ := ofText_eq_of_respells hrespells
      exact ⟨hid.symm, t, hrespells, if_pos (hmem hplaceholder)⟩

/-- A pattern with `Aa` at two places, and its four respellings. -/
theorem id_eq_of_alike_twice :
    (Hook.selector "&.Aa").id = (Hook.selector "&.BB").id ∧
    (Hook.atRule .media " (AaAa)").id = (Hook.atRule .media " (AaBB)").id ∧
    places "&.AaAa" = 2 ∧
    ∃ hooks : List Hook, hooks.Nodup ∧ hooks.length = 4 ∧
      ∀ hook ∈ hooks, hook.id = (Hook.selector "&.AaAa").id := by
  obtain ⟨halike, hreplaced, hrespelled⟩ := id_eq_of_alike
  obtain ⟨hooks, hnodup, hlength, hids⟩ := hrespelled "&.AaAa" (by decide)
  refine ⟨?_, ?_, by decide, hooks, hnodup, hlength, fun hook hhook => (hids hook hhook).1⟩
  · exact halike "&." "" "Aa" "BB" (by decide) (by decide) _ _ rfl rfl
  · exact hreplaced "@media (Aa" ")" _ _ rfl rfl

end HookId

end Cascade
