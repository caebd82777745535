/-
The lower case of a character, what trimming keeps of a string, and splitting and joining.
-/
import JulongApi.Strings

namespace JulongApi

/-- A capital letter of ASCII, one of the two characters whose lower case is in ASCII, or a
character that is its own lower case. -/
theorem toLowerChar_cases (c : Char) :
    (c.toNat = 0x212A ∧ toLowerChar c = 'k') ∨ (c.toNat = 0x130 ∧ toLowerChar c = 'i') ∨
      (65 ≤ c.toNat ∧ c.toNat ≤ 90 ∧ (toLowerChar c).toNat = c.toNat + 32) ∨
      toLowerChar c = c := by
  unfold toLowerChar
  by_cases hk : c = '\u212A'
  · exact Or.inl ⟨by rw [hk]; rfl, if_pos hk⟩
  · by_cases hi : c = '\u0130'
    · exact Or.inr (Or.inl ⟨by rw [hi]; rfl, by rw [if_neg hk, if_pos hi]⟩)
    · rw [if_neg hk, if_neg hi]
      unfold Char.toLower
      split
      · rename_i h
        have hlow : 65 ≤ c.val.toNat := UInt32.le_iff_toNat_le.mp h.1
        have hhigh : c.val.toNat ≤ 90 := UInt32.le_iff_toNat_le.mp h.2
        refine Or.inr (Or.inr (Or.inl ⟨hlow, hhigh, ?_⟩))
        show (c.val + 32).toNat = c.val.toNat + 32
        rw [UInt32.toNat_add]
        exact Nat.mod_eq_of_lt (show c.val.toNat + 32 < 2 ^ 32 by omega)
      · exact Or.inr (Or.inr (Or.inr rfl))

theorem trimSpace_trimSpace (s : String) : trimSpace (trimSpace s) = trimSpace s := by
  have htrim : ∀ t : String,
      trimSpace t = String.ofList ((t.toList.dropWhile isSpace).rdropWhile isSpace) :=
    fun t => rfl
  rw [htrim (trimSpace s), htrim s, String.toList_ofList]
  have hprefix := List.rdropWhile_prefix isSpace (s.toList.dropWhile isSpace)
  have hfirst : ((s.toList.dropWhile isSpace).rdropWhile isSpace).dropWhile isSpace =
      (s.toList.dropWhile isSpace).rdropWhile isSpace := by
    generalize (s.toList.dropWhile isSpace).rdropWhile isSpace = trimmed at hprefix
    cases trimmed with
    | nil => rfl
    | cons c rest =>
      obtain ⟨after, hafter⟩ := hprefix
      have hhead : (s.toList.dropWhile isSpace).head? = some c := by
        rw [← hafter]
        rfl
      have hnot := List.head?_dropWhile_not isSpace s.toList
      rw [hhead] at hnot
      exact List.dropWhile_cons_of_neg (by simpa using hnot)
  rw [hfirst, List.rdropWhile_idempotent]

variable {text s sep : String} {c : Char}

theorem trimSpace_eq_empty_iff : trimSpace text = "" ↔ ∀ c ∈ text.toList, isSpace c = true := by
  have hnil : trimSpace text = "" ↔
      ∀ c ∈ text.toList.dropWhile isSpace, isSpace c = true := by
    rw [← String.toList_eq_nil_iff, trimSpace, String.toList_ofList, List.reverse_eq_nil_iff,
      List.dropWhile_eq_nil_iff]
    simp only [List.mem_reverse]
  rw [hnil]
  constructor
  · intro h c hc
    rw [← List.takeWhile_append_dropWhile (p := isSpace) (l := text.toList)] at hc
    rcases List.mem_append.mp hc with htake | hdrop
    · exact List.mem_takeWhile_imp htake
    · exact h c hdrop
  · intro h c hc
    exact h c ((List.dropWhile_sublist isSpace).subset hc)

theorem length_trimSpace_le (text : String) : (trimSpace text).length ≤ text.length := by
  have hend := (List.dropWhile_sublist (l := (text.toList.dropWhile isSpace).reverse)
    isSpace).length_le
  have hstart := (List.dropWhile_sublist (l := text.toList) isSpace).length_le
  simp only [trimSpace, ← String.length_toList, String.toList_ofList, List.length_reverse] at *
  omega

theorem mem_of_mem_trimSpace (h : c ∈ (trimSpace text).toList) : c ∈ text.toList := by
  simp only [trimSpace, String.toList_ofList, List.mem_reverse] at h
  have hend := (List.dropWhile_sublist _).subset h
  rw [List.mem_reverse] at hend
  exact (List.dropWhile_sublist _).subset hend

theorem cutSuffix_eq_some {stop front : String} :
    cutSuffix s stop = some front ↔ s = front ++ stop := by
  unfold cutSuffix
  constructor
  · intro h
    obtain ⟨hsuffix, h⟩ := Option.ite_none_right_eq_some.mp h
    obtain ⟨before, hbefore⟩ := List.isSuffixOf_iff_suffix.mp hsuffix
    have hlength : s.length - stop.length = before.length := by
      rw [← String.length_toList, ← hbefore, List.length_append, String.length_toList]
      omega
    rw [hlength, ← hbefore, List.take_left, Option.some.injEq] at h
    refine String.toList_inj.mp ?_
    rw [← h, String.toList_append, String.toList_ofList, hbefore]
  · rintro rfl
    have hsuffix : stop.toList.isSuffixOf (front ++ stop).toList = true := by
      rw [List.isSuffixOf_iff_suffix, String.toList_append]
      exact List.suffix_append _ _
    rw [if_pos hsuffix, String.length_append, Nat.add_sub_cancel, String.toList_append,
      ← String.length_toList, List.take_left, String.ofList_toList]

/-! ### The first occurrence of a text -/

theorem cut_go_iff (hsep : sep ≠ "") : ∀ {rest before : List Char} {b a : String},
    cut.go sep before rest = some (b, a) ↔
      ∃ piece, b.toList = before.reverse ++ piece ∧ rest = piece ++ sep.toList ++ a.toList ∧
        ∀ k, k < piece.length → sep.toList.isPrefixOf (rest.drop k) = false := by
  have hne : sep.toList ≠ [] := fun h => hsep (String.toList_eq_nil_iff.mp h)
  intro rest
  induction rest with
  | nil =>
    intro before b a
    rw [cut.go]
    refine ⟨fun h => (by cases h), ?_⟩
    rintro ⟨piece, -, hrest, -⟩
    have hparts := List.append_eq_nil_iff.mp hrest.symm
    exact absurd (List.append_eq_nil_iff.mp hparts.1).2 hne
  | cons c rest ih =>
    intro before b a
    rw [cut.go]
    by_cases hprefix : sep.toList.isPrefixOf (c :: rest) = true
    · rw [if_pos hprefix]
      obtain ⟨after, hafter⟩ := List.isPrefixOf_iff_prefix.mp hprefix
      have hdrop : (c :: rest).drop sep.length = after := by
        rw [← hafter, ← String.length_toList, List.drop_left]
      rw [hdrop]
      constructor
      · intro h
        cases h
        exact ⟨[], by simp, by simp [hafter], by simp⟩
      · rintro ⟨piece, hb, hrest, hfirst⟩
        cases piece with
        | nil =>
          rw [List.nil_append] at hrest
          rw [hrest, List.append_cancel_left_eq] at hafter
          rw [List.append_nil] at hb
          rw [← hb, hafter, String.ofList_toList, String.ofList_toList]
        | cons d piece =>
          have := hfirst 0 (by simp)
          rw [List.drop_zero, hprefix] at this
          cases this
    · rw [if_neg hprefix, ih]
      constructor
      · rintro ⟨piece, hb, hrest, hfirst⟩
        refine ⟨c :: piece, by rw [hb]; simp, by rw [hrest]; simp, ?_⟩
        intro k hk
        cases k with
        | zero =>
          rw [List.drop_zero]
          exact Bool.not_eq_true _ |>.mp hprefix
        | succ k =>
          rw [List.drop_succ_cons]
          exact hfirst k (by simpa using hk)
      · rintro ⟨piece, hb, hrest, hfirst⟩
        cases piece with
        | nil =>
          exact absurd (List.isPrefixOf_iff_prefix.mpr ⟨a.toList, by rw [hrest]; simp⟩) hprefix
        | cons d piece =>
          rw [List.cons_append, List.cons_append] at hrest
          obtain ⟨hhead, htail⟩ := List.cons.inj hrest
          subst hhead
          refine ⟨piece, by rw [hb]; simp, htail, ?_⟩
          intro k hk
          have := hfirst (k + 1) (by simpa using hk)
          rwa [List.drop_succ_cons] at this

theorem cut_eq_some_iff {b a : String} (hsep : sep ≠ "") :
    cut s sep = some (b, a) ↔
      s.toList = b.toList ++ sep.toList ++ a.toList ∧
        ∀ k, k < b.length → sep.toList.isPrefixOf (s.toList.drop k) = false := by
  rw [cut, cut_go_iff hsep]
  constructor
  · rintro ⟨piece, hb, hs, hfirst⟩
    rw [List.reverse_nil, List.nil_append] at hb
    rw [← String.length_toList, hb]
    exact ⟨hs, hfirst⟩
  · rintro ⟨hs, hfirst⟩
    exact ⟨b.toList, by simp, hs, by rwa [String.length_toList]⟩

/-! ### Splitting and joining -/

theorem intercalate_split (hsep : sep.toList = [c]) (text : String) :
    sep.intercalate (split text c) = text := by
  refine String.toList_inj.mp ?_
  rw [String.toList_intercalate, split, List.map_map, hsep]
  have hsame : (text.toList.splitOn c).map (String.toList ∘ String.ofList)
      = text.toList.splitOn c := by
    refine (List.map_congr_left fun chars _ => ?_).trans (List.map_id' _)
    exact String.toList_ofList
  rw [hsame]
  exact List.intercalate_splitOn c

theorem join_split (text : String) : ".".intercalate (split text '.') = text :=
  intercalate_split (by simp) text

theorem join_cons (sep : String) (after : List String) :
    ∃ tail, ∀ piece, sep.intercalate (piece :: after) = piece ++ tail := by
  cases after with
  | nil => exact ⟨"", fun piece => by rw [String.intercalate_singleton, String.append_empty]⟩
  | cons next rest =>
    refine ⟨sep ++ sep.intercalate (next :: rest), fun piece => ?_⟩
    rw [String.intercalate_cons_cons, String.append_assoc]

end JulongApi
