import Kworker.Terminal.Prefs

/-!
# The new-tab menu and the extension generators
-/

namespace Kworker.Terminal

open Kworker.Lib

/-! ## Texts -/

theorem clampStr_eq_take (s : JsString) (n : Nat) : clampStr s n = s.take n := by
  unfold clampStr
  split
  · rfl
  · rename_i h
    exact (List.take_of_length_le (not_lt.mp h)).symm

theorem clampStr_of_le {s : JsString} {n : Nat} (h : s.length ≤ n) : clampStr s n = s := by
  rw [clampStr_eq_take, List.take_of_length_le h]

theorem clampStr_length_le (s : JsString) (n : Nat) : (clampStr s n).length ≤ n := by
  rw [clampStr_eq_take]
  exact List.length_take_le n s

theorem clampStr_eq_nil_iff {s : JsString} {n : Nat} (hn : 0 < n) : clampStr s n = [] ↔ s = [] := by
  rw [clampStr_eq_take, List.take_eq_nil_iff]
  exact or_iff_right hn.ne'

theorem trim_clampStr_trim_ne_nil {s : JsString} {n : Nat} (hn : 0 < n) (h : trim s ≠ []) :
    trim (clampStr (trim s) n) ≠ [] := by
  rw [clampStr_eq_take]
  exact trim_take_trim_ne_nil h hn

/-! ## Entries -/

/-- An entry that is read back as it is. -/
def MenuItem.Fits : MenuItem → Prop
  | .folder name => name ≠ [] ∧ NoBlankEnds name ∧ name.length ≤ 64
  | _ => True

/-- An entry whose name is not cut. -/
def MenuItem.Short : MenuItem → Prop
  | .folder name => name.length ≤ 64
  | _ => True

theorem MenuItem.WellFormed.short {i : MenuItem} (h : i.WellFormed) : i.Short := by
  cases i with
  | folder name => exact h.2
  | remaining => trivial
  | separator => trivial
  | profile p => trivial

theorem readMenuItem_folder (name : JsString) :
    readMenuItem (MenuItem.folder name).toJson =
      if clampStr (trim name) 64 = [] then none else some (.folder (clampStr (trim name) 64)) := rfl

theorem readMenuItem_profile (p : Profile) : readMenuItem (MenuItem.profile p).toJson = some (.profile p) := by
  cases p with
  | daemon => rfl
  | khsl => rfl
  | powershell => rfl

theorem MenuItem.Fits.read {i : MenuItem} (h : i.Fits) : readMenuItem i.toJson = some i := by
  cases i with
  | remaining => rfl
  | separator => rfl
  | profile p => exact readMenuItem_profile p
  | folder name =>
      obtain ⟨hne, hends, hlen⟩ := h
      rw [readMenuItem_folder, hends.trim_eq, clampStr_of_le hlen, if_neg hne]

theorem MenuItem.Short.read_fits {i j : MenuItem} (h : i.Short) (hread : readMenuItem i.toJson = some j) :
    j.Fits := by
  cases i with
  | remaining => cases hread; trivial
  | separator => cases hread; trivial
  | profile p =>
      rw [readMenuItem_profile] at hread
      cases hread
      trivial
  | folder name =>
      have hlen : (trim name).length ≤ 64 := (trim_length_le name).trans h
      rw [readMenuItem_folder, clampStr_of_le hlen, Option.ite_none_left_eq_some] at hread
      obtain ⟨hne, hread⟩ := hread
      cases hread
      exact ⟨hne, noBlankEnds_trim name, hlen⟩

theorem readMenuItem_wellFormed {it : Json} {i : MenuItem} (h : readMenuItem it = some i) : i.WellFormed := by
  simp only [readMenuItem] at h
  split at h
  · cases h; trivial
  split at h
  · cases h; trivial
  split at h
  · split at h
    · rename_i name _
      rw [Option.ite_none_left_eq_some] at h
      obtain ⟨hne, h⟩ := h
      cases h
      have htrim : trim name ≠ [] := fun hnil => hne (by rw [hnil]; rfl)
      exact ⟨trim_clampStr_trim_ne_nil (by decide) htrim, clampStr_length_le _ _⟩
    · cases h
  split at h
  · obtain ⟨p, _, rfl⟩ := Option.map_eq_some_iff.mp h
    trivial
  · cases h

/-! ## The list -/

/-- What holds of every entry that is read holds of the whole list. -/
theorem collectMenuItems_forall {Q : MenuItem → Prop} {raw : List Json} (hremaining : Q .remaining)
    (hraw : ∀ it ∈ raw, ∀ i, readMenuItem it = some i → Q i) (seen : Bool) :
    ∀ i ∈ collectMenuItems seen raw, Q i := by
  induction raw generalizing seen with
  | nil =>
      intro i hi
      cases seen with
      | true => cases hi
      | false =>
          rw [List.mem_singleton.mp hi]
          exact hremaining
  | cons it raw ih =>
      have htail := ih fun j hj => hraw j (List.mem_cons_of_mem _ hj)
      intro i hi
      rw [collectMenuItems] at hi
      split at hi
      · exact htail seen i hi
      · split at hi
        · exact htail _ i hi
        · rcases List.mem_cons.mp hi with rfl | hi
          · exact hremaining
          · exact htail _ i hi
      · rename_i item _ hread
        rcases List.mem_cons.mp hi with rfl | hi
        · exact hraw it List.mem_cons_self _ hread
        · exact htail seen i hi

theorem count_collectMenuItems (raw : List Json) (seen : Bool) :
    (collectMenuItems seen raw).count .remaining = if seen then 0 else 1 := by
  induction raw generalizing seen with
  | nil => cases seen <;> rfl
  | cons it raw ih =>
      rw [collectMenuItems]
      split
      · exact ih seen
      · cases seen with
        | true => exact ih true
        | false =>
            rw [if_neg (by decide), List.count_cons_self, ih true]
            rfl
      · rename_i item hne _
        rw [List.count_cons_of_ne hne, ih seen]

/-- Of entries that it can read, the normaliser drops, merges and moves none. -/
theorem collectMenuItems_map {items : List MenuItem} {f : MenuItem → MenuItem} {seen : Bool}
    (hread : ∀ i ∈ items, readMenuItem i.toJson = some (f i))
    (hkept : ∀ i ∈ items, f i = .remaining ↔ i = .remaining)
    (hcount : items.count .remaining = if seen then 0 else 1) :
    collectMenuItems seen (items.map MenuItem.toJson) = items.map f := by
  induction items generalizing seen with
  | nil =>
      cases seen with
      | true => rfl
      | false => cases hcount
  | cons i items ih =>
      have hrest {seen : Bool} (hcount : items.count .remaining = if seen then 0 else 1) :
          collectMenuItems seen (items.map MenuItem.toJson) = items.map f :=
        ih (fun j hj => hread j (List.mem_cons_of_mem _ hj)) (fun j hj => hkept j (List.mem_cons_of_mem _ hj))
          hcount
      have hi := hkept i List.mem_cons_self
      rw [List.map_cons, collectMenuItems, hread i List.mem_cons_self, List.map_cons]
      by_cases hr : i = .remaining
      · rw [hr, List.count_cons_self] at hcount
        rw [hi.mpr hr]
        cases seen with
        | true => cases hcount
        | false => exact congrArg _ (hrest (by simpa using hcount))
      · rw [List.count_cons_of_ne hr] at hcount
        cases hk : f i with
        | remaining => exact absurd (hi.mp hk) hr
        | separator => exact congrArg _ (hrest hcount)
        | folder name => exact congrArg _ (hrest hcount)
        | profile p => exact congrArg _ (hrest hcount)

theorem collectMenuItems_of_fits {items : List MenuItem} {seen : Bool} (hfits : ∀ i ∈ items, i.Fits)
    (hcount : items.count .remaining = if seen then 0 else 1) :
    collectMenuItems seen (items.map MenuItem.toJson) = items := by
  have hmap := collectMenuItems_map (f := id) (fun i hi => (hfits i hi).read) (fun _ _ => Iff.rfl) hcount
  rwa [List.map_id] at hmap

theorem normalizeNewTabMenuItems_spec (v : Option Json) :
    (∀ i ∈ normalizeNewTabMenuItems v, i.WellFormed) ∧ (normalizeNewTabMenuItems v).count .remaining = 1 := by
  have hall (raw : List Json) : (∀ i ∈ collectMenuItems false raw, i.WellFormed) ∧
      (collectMenuItems false raw).count .remaining = 1 :=
    ⟨collectMenuItems_forall trivial (fun _ _ _ => readMenuItem_wellFormed) false, count_collectMenuItems raw false⟩
  unfold normalizeNewTabMenuItems
  split
  · exact hall _
  · exact hall []

/-- Entries whose names are not cut are normal once they have been read. -/
theorem normalizeNewTabMenuItems_of_short {items : List MenuItem} (h : ∀ i ∈ items, i.Short) :
    normalizeNewTabMenuItems (some (menuJson (normalizeNewTabMenuItems (some (menuJson items))))) =
      normalizeNewTabMenuItems (some (menuJson items)) := by
  refine collectMenuItems_of_fits ?_ (count_collectMenuItems _ false)
  refine collectMenuItems_forall trivial (fun it hit i hread => ?_) false
  obtain ⟨j, hj, rfl⟩ := List.mem_map.mp hit
  exact (h j hj).read_fits hread

theorem MenuItem.toJson_plain (i : MenuItem) : i.toJson.Plain := by
  have hone (t : JsString) : (Json.object [(js "kind", .string t)]).Plain := by
    refine .object (List.nodup_singleton _) ?_ ?_
    · intro n hn
      rw [List.mem_singleton.mp hn]
      rfl
    · intro f hf
      rw [List.mem_singleton.mp hf]
      exact .string t
  have htwo (name : JsString) (hne : js "kind" ≠ name) (hindex : name.all isDigit = false) (s t : JsString) :
      (Json.object [(js "kind", .string s), (name, .string t)]).Plain := by
    refine .object ?_ ?_ ?_
    · exact List.nodup_cons.mpr ⟨fun h => hne (List.mem_singleton.mp h), List.nodup_singleton _⟩
    · intro n hn
      rcases List.mem_pair.mp hn with rfl | rfl
      · rfl
      · exact hindex
    · intro f hf
      rcases List.mem_pair.mp hf with rfl | rfl
      · exact .string s
      · exact .string t
  cases i with
  | remaining => exact hone _
  | separator => exact hone _
  | folder name => exact htwo (js "name") (by decide) rfl _ _
  | profile p => exact htwo (js "profile") (by decide) rfl _ _

theorem menuJson_plain (items : List MenuItem) : (menuJson items).Plain := by
  refine .array fun v hv => ?_
  obtain ⟨i, _, rfl⟩ := List.mem_map.mp hv
  exact i.toJson_plain

/-! ## The extension generators -/

theorem Generator.mem_all (g : Generator) : g ∈ Generator.all := by
  cases g <;> decide

theorem Generator.name_injective : Function.Injective Generator.name := by
  intro g h hname
  cases g <;> cases h <;> first | rfl | exact absurd hname (by decide)

theorem normalizeExtensionGenerators_json (r : Generator → Bool) :
    normalizeExtensionGenerators (some (generatorsJson r)) = r := by
  funext g
  have hget : (generatorsJson r).get g.name = some (.bool (r g)) :=
    Json.get_ofKeys _ Generator.name_injective g.mem_all
  simp only [normalizeExtensionGenerators, Option.bind_some, hget]

theorem generatorsJson_plain (r : Generator → Bool) : (generatorsJson r).Plain := by
  refine Json.plain_ofKeys (by decide) Generator.name_injective ?_ fun g _ => .bool _
  intro g
  cases g <;> rfl

end Kworker.Terminal
