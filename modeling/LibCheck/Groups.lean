import Mathlib.Data.List.Induction
import Mathlib.Data.List.Nodup

/-!
# LibCheck.Groups

Lists whose elements have keys, and the groups of equal keys.

`List.eraseDups` of the keys names the groups in the order in which they begin,
and a filter gives the elements of one.  Where equal keys stand together
(`Grouped`), putting the groups behind each other gives the list back
(`flatMap_filter_eraseDups`).
-/

namespace LibCheck

variable {α κ : Type}

/-- Equal elements stand together. -/
def Grouped (l : List κ) : Prop := ∀ x y, [x, y, x].Sublist l → y = x

theorem grouped_nil : Grouped ([] : List κ) := by
  intro x y h
  simp at h

theorem Grouped.sublist {l l' : List κ} (h : Grouped l') (hl : l.Sublist l') : Grouped l :=
  fun x y hxy => h x y (hxy.trans hl)

/-- One more element, which is new or like the last one. -/
theorem Grouped.concat {l : List κ} {z : κ} (h : Grouped l) (hz : z ∈ l → l.getLast? = some z) :
    Grouped (l ++ [z]) := by
  intro x y hxy
  obtain ⟨p, q, heq, hp, hq⟩ := List.sublist_append_iff.mp hxy
  rcases List.sublist_singleton.mp hq with rfl | rfl
  · rw [List.append_nil] at heq
    exact h x y (heq ▸ hp)
  · obtain ⟨rfl, rfl⟩ : p = [x, y] ∧ z = x := by
      have := List.append_inj' (show [x, y] ++ [x] = p ++ [z] from heq) rfl
      simpa [eq_comm] using this
    -- the last `z` of the list before completes the pattern
    have hlast := hz (hp.subset List.mem_cons_self)
    obtain ⟨l', rfl⟩ := List.getLast?_eq_some_iff.mp hlast
    obtain ⟨p, q, heq, hp, hq⟩ := List.sublist_append_iff.mp hp
    rcases List.sublist_singleton.mp hq with rfl | rfl
    · rw [List.append_nil] at heq
      exact h z y ((heq ▸ hp).append (List.Sublist.refl [z]))
    · have := List.append_inj' (show [z] ++ [y] = p ++ [z] from heq) rfl
      simpa using this.2

/-- In a grouped list the elements with the first key come first. -/
theorem filter_append_filter_of_grouped [DecidableEq κ] {f : α → κ} {k : κ} {l : List α}
    (h : Grouped (k :: l.map f)) :
    (l.filter fun a => f a = k) ++ (l.filter fun a => f a ≠ k) = l := by
  induction l with
  | nil => simp
  | cons a l ih =>
      by_cases ha : f a = k
      · have hl : Grouped (k :: l.map f) := h.sublist (by simp)
        simpa [ha] using ih hl
      · -- no later element has the key again
        have hno : ∀ b ∈ l, f b ≠ k := by
          intro b hb hbk
          refine ha (h k (f a) ?_)
          simpa [hbk] using List.mem_map_of_mem (f := f) hb
        have hnone : (l.filter fun b => f b = k) = [] := by simpa using hno
        simpa [ha, hnone] using hno

section

variable [BEq κ] [LawfulBEq κ]

theorem eraseDups_concat (l : List κ) (x : κ) :
    (l ++ [x]).eraseDups = if x ∈ l then l.eraseDups else l.eraseDups ++ [x] := by
  by_cases h : x ∈ l <;> simp [List.eraseDups_append, List.removeAll, List.eraseDups_cons, h]

theorem nodup_eraseDups (l : List κ) : l.eraseDups.Nodup := by
  induction l using List.reverseRecOn with
  | nil => simp
  | append_singleton l x ih =>
      rw [eraseDups_concat]
      by_cases h : x ∈ l
      · simpa [h] using ih
      · simp [h, ih, List.nodup_append, List.mem_eraseDups]
        grind

/-- **The groups of a grouped list, put behind each other, are the list.** -/
theorem flatMap_filter_eraseDups [DecidableEq κ] {f : α → κ} {l : List α} (h : Grouped (l.map f)) :
    (l.map f).eraseDups.flatMap (fun k => l.filter fun a => f a = k) = l := by
  induction hn : l.length using Nat.strongRecOn generalizing l with
  | _ n ih =>
      cases l with
      | nil => simp
      | cons a l =>
          have hsplit := filter_append_filter_of_grouped (f := f) h
          have hrest : Grouped ((l.filter fun b => f b ≠ f a).map f) :=
            h.sublist ((List.filter_sublist.map f).trans (by simp))
          have hkeys : (l.map f).filter (fun k => !k == f a) =
              (l.filter fun b => f b ≠ f a).map f := by
            rw [List.filter_map]
            congr 1
            apply List.filter_congr
            intro b _
            by_cases hb : f b = f a <;> simp [hb]
          have hlen : (l.filter fun b => f b ≠ f a).length < n := by
            have := List.length_filter_le (fun b => decide (f b ≠ f a)) l
            simp at hn
            omega
          have hih := ih _ hlen hrest rfl
          rw [List.map_cons, List.eraseDups_cons, List.flatMap_cons, hkeys]
          have hgroups : ((l.filter fun b => f b ≠ f a).map f).eraseDups.flatMap
                (fun k => (a :: l).filter fun b => f b = k) =
              ((l.filter fun b => f b ≠ f a).map f).eraseDups.flatMap
                (fun k => (l.filter fun b => f b ≠ f a).filter fun b => f b = k) := by
            apply List.flatMap_congr
            intro k hk
            obtain ⟨b, hb, rfl⟩ := List.mem_map.mp (List.mem_eraseDups.mp hk)
            have hne : f b ≠ f a := by simpa using (List.mem_filter.mp hb).2
            rw [List.filter_cons_of_neg (by simpa using hne.symm), List.filter_filter]
            apply List.filter_congr
            intro c _
            by_cases hc : f c = f b <;> simp [hc, hne]
          rw [hgroups, hih]
          simpa using hsplit

end

end LibCheck
