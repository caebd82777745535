/-
A pool of jobs, each of which goes on by itself.

A pool is a list.  Taking up work appends jobs, and a job that goes on is replaced in
place, so an index names one job for good.  What has to be shown of a pool is mostly that
of some kind of job there is at most one; `AtMostOne` says so and survives both ways of
changing a pool.  What the jobs hold between them is a sum over the pool, and a change of
one job changes it by what that job holds.
-/
import Mathlib.Algebra.BigOperators.Group.List.Basic
import Mathlib.Data.List.Basic

namespace Pool

variable {ι : Type} {p : ι → Prop} {l new : List ι} {i k : Nat} {a b c : ι}

def AtMostOne (p : ι → Prop) (l : List ι) : Prop :=
  ∀ (i k : Nat) (a b : ι), l[i]? = some a → l[k]? = some b → p a → p b → i = k

theorem getElem?_set_cases (h : (l.set i b)[k]? = some c) :
    (k = i ∧ c = b) ∨ (k ≠ i ∧ l[k]? = some c) := by
  by_cases hk : i = k
  · subst hk
    rw [List.getElem?_set] at h
    simp only [if_true] at h
    split at h
    · exact .inl ⟨rfl, (Option.some.inj h).symm⟩
    · simp at h
  · rw [List.getElem?_set_ne hk] at h
    exact .inr ⟨Ne.symm hk, h⟩

theorem mem_set_cases (h : c ∈ l.set i b) : c = b ∨ ∃ k, k ≠ i ∧ l[k]? = some c := by
  obtain ⟨k, hk⟩ := List.mem_iff_getElem?.mp h
  rcases getElem?_set_cases hk with ⟨-, rfl⟩ | ⟨hne, hold⟩
  · exact .inl rfl
  · exact .inr ⟨k, hne, hold⟩

theorem AtMostOne.append (h : AtMostOne p l) (hnew : ∀ a ∈ new, ¬p a) :
    AtMostOne p (l ++ new) := by
  have hold : ∀ (i : Nat) (a : ι), (l ++ new)[i]? = some a → p a → l[i]? = some a := by
    intro i a hi ha
    rw [List.getElem?_append] at hi
    split at hi
    · exact hi
    · exact absurd ha (hnew a (List.mem_of_getElem? hi))
  intro i k a b hi hk ha hb
  exact h i k a b (hold i a hi ha) (hold k b hk hb) ha hb

theorem AtMostOne.push (h : AtMostOne p l) (hnew : p b → ∀ a ∈ l, ¬p a) :
    AtMostOne p (l ++ [b]) := by
  by_cases hb : p b
  · have hold : ∀ (i : Nat) (a : ι), (l ++ [b])[i]? = some a → p a → i = l.length := by
      intro i a hi ha
      rw [List.getElem?_append] at hi
      split at hi
      · exact absurd ha (hnew hb a (List.mem_of_getElem? hi))
      · obtain ⟨hlt, -⟩ := List.getElem?_eq_some_iff.mp hi
        simp only [List.length_singleton] at hlt
        omega
    intro i k a c hi hk ha hc
    rw [hold i a hi ha, hold k c hk hc]
  · refine h.append fun a ha => ?_
    obtain rfl := List.mem_singleton.mp ha
    exact hb

theorem AtMostOne.eraseIdx (h : AtMostOne p l) (n : Nat) : AtMostOne p (l.eraseIdx n) := by
  intro i k a b hi hk ha hb
  rw [List.getElem?_eraseIdx] at hi hk
  split at hi <;> split at hk
  · exact h i k a b hi hk ha hb
  · have := h i (k + 1) a b hi hk ha hb
    omega
  · have := h (i + 1) k a b hi hk ha hb
    omega
  · have := h (i + 1) (k + 1) a b hi hk ha hb
    omega

theorem AtMostOne.set (h : AtMostOne p l) (hi : l[i]? = some a)
    (hb : p b → p a ∨ ∀ c ∈ l, ¬p c) : AtMostOne p (l.set i b) := by
  have hother : ∀ (k : Nat) (c : ι), k ≠ i → l[k]? = some c → p c → ¬p b := by
    intro k c hne hk hc hpb
    rcases hb hpb with ha | hnone
    · exact hne (h k i c a hk hi hc ha)
    · exact hnone c (List.mem_of_getElem? hk) hc
  intro j k c d hj hk hc hd
  rcases getElem?_set_cases hj with ⟨hji, hcb⟩ | ⟨hjne, hjold⟩ <;>
    rcases getElem?_set_cases hk with ⟨hki, hdb⟩ | ⟨hkne, hkold⟩
  · rw [hji, hki]
  · exact absurd (hcb ▸ hc) (hother k d hkne hkold hd)
  · exact absurd (hdb ▸ hd) (hother j c hjne hjold hc)
  · exact h j k c d hjold hkold hc hd

theorem AtMostOne.not_of_ne (h : AtMostOne p l) (hi : l[i]? = some a) (ha : p a) (hne : k ≠ i)
    (hk : l[k]? = some b) : ¬p b :=
  fun hb => hne (h k i b a hk hi hb ha)

/-! ### What the jobs hold -/

section Sum

variable {G : Type} [AddCommGroup G] (w : ι → G)

theorem sum_set (hi : l[i]? = some a) :
    ((l.set i b).map w).sum = (l.map w).sum + (-w a + w b) := by
  obtain ⟨hlt, rfl⟩ := List.getElem?_eq_some_iff.mp hi
  rw [List.map_set, List.sum_set', dif_pos (by simpa using hlt), List.getElem_map]

theorem sum_eraseIdx (hi : l[i]? = some a) :
    w a + ((l.eraseIdx i).map w).sum = (l.map w).sum := by
  obtain ⟨hlt, rfl⟩ := List.getElem?_eq_some_iff.mp hi
  have hlt' : i < (l.map w).length := by simpa using hlt
  have hsum := List.CommMonoid.add_sum_eraseIdx hlt'
  rwa [List.getElem_map, List.eraseIdx_map] at hsum

end Sum

end Pool
