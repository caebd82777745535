/-
What `delete` removes by a wildcard path.

The paths of the matched places are all different, and where they are plain each deletion is made at
its place; a path of spaces alone is skipped.
-/
import JulongApi.Proofs.OverrideDeletions
import JulongApi.Proofs.Strings

namespace JulongApi.Override

open JsonTree

variable {F : Type} {lib : PathLibrary F}

/-! ### The paths are all different -/

theorem toString_injective {first second : Nat} (h : toString first = toString second) :
    first = second := by
  have hindex := itemIndex_toString first
  rw [h, itemIndex_toString second] at hindex
  exact (Option.some.inj hindex).symm

variable {component path : String} {data : Json F} {paths components segments : List String}

theorem disjoint_collected {rest : List String} {pre : List String} {other : String}
    {child child' : Json F} (hne : component ≠ other) :
    (collectWildcardPaths rest child (pre ++ [component])).Disjoint
      (collectWildcardPaths rest child' (pre ++ [other])) := by
  intro path hfirst hsecond
  obtain ⟨components, -, rfl, -⟩ := (collects _ _ _ _).mp hfirst
  obtain ⟨components', -, heq, -⟩ := (collects _ _ _ _).mp hsecond
  rw [List.append_assoc, List.append_assoc, List.append_cancel_left_eq] at heq
  exact hne (List.cons.inj heq).1

theorem nodup_collected : ∀ (segments : List String) (doc : Json F) (pre : List String),
    (collectWildcardPaths segments doc pre).Nodup := by
  intro segments
  induction segments with
  | nil => intro doc pre; simp [collect_nil]
  | cons segment rest ih =>
    intro doc pre
    by_cases hempty : trimSpace segment = ""
    · rw [collect_of_empty hempty]
      exact List.nodup_nil
    · cases doc with
      | scalar value =>
        rw [collect_scalar]
        exact List.nodup_nil
      | object fields =>
        by_cases hstar : trimSpace segment = "*"
        · rw [collect_fields hstar, List.nodup_flatMap]
          constructor
          · intro key _
            cases getField key fields with
            | none => exact List.nodup_nil
            | some child => exact ih child _
          · refine (nodup_sortedKeys fields).imp fun {first second} hne => ?_
            simp only [Function.onFun]
            cases getField first fields with
            | none => exact List.disjoint_nil_left _
            | some child =>
              cases getField second fields with
              | none => exact List.disjoint_nil_right _
              | some child' => exact disjoint_collected hne
        · rw [collect_field hempty hstar]
          by_cases hrest : rest = []
          · simp [hrest]
          · simp only [hrest, if_false]
            cases getField (trimSpace segment) fields with
            | none => exact List.nodup_nil
            | some child => exact ih child _
      | array items =>
        by_cases hstar : trimSpace segment = "*"
        · rw [collect_items hstar, List.nodup_flatMap]
          constructor
          · intro index _
            cases items[index]? with
            | none => exact List.nodup_nil
            | some child => exact ih child _
          · refine List.nodup_range.imp fun {first second} hne => ?_
            simp only [Function.onFun]
            cases items[first]? with
            | none => exact List.disjoint_nil_left _
            | some child =>
              cases items[second]? with
              | none => exact List.disjoint_nil_right _
              | some child' =>
                exact disjoint_collected fun h => hne (toString_injective h)
        · rw [collect_item hempty hstar]
          cases atoi (trimSpace segment) with
          | none => exact List.nodup_nil
          | some index =>
            by_cases hrange : index < 0 ∨ (items.length : Int) ≤ index
            · simp [hrange]
            · by_cases hrest : rest = []
              · simp [hrange, hrest]
              · simp only [hrange, hrest, if_false]
                cases items[index.toNat]? with
                | none => exact List.nodup_nil
                | some child => exact ih child _

theorem eraseDups_of_nodup : ∀ {texts : List String}, texts.Nodup → texts.eraseDups = texts := by
  intro texts
  induction texts with
  | nil => intro _; rfl
  | cons text rest ih =>
    intro h
    obtain ⟨htext, hrest⟩ := List.nodup_cons.mp h
    have hkept : rest.filter (fun other => !other == text) = rest := by
      refine List.filter_eq_self.mpr fun other hother => ?_
      have hne : other ≠ text := by
        rintro rfl
        exact htext hother
      simpa using hne
    rw [List.eraseDups_cons, hkept, ih hrest]

/-! ### The operation -/

theorem expand_eq (hplain : PlainPlaces path data)
    (h : lib.expandWildcardPaths data path = .ok paths) :
    paths = (collectWildcardPaths (split path '.') data []).map (".".intercalate ·) := by
  have hinjective : ∀ first ∈ collectWildcardPaths (split path '.') data [],
      ∀ second ∈ collectWildcardPaths (split path '.') data [],
        ".".intercalate first = ".".intercalate second → first = second := by
    intro first hfirst second hsecond heq
    obtain ⟨components, steps, rfl, hmatched⟩ := (collects _ _ _ _).mp hfirst
    obtain ⟨others, steps', rfl, hmatched'⟩ := (collects _ _ _ _).mp hsecond
    have hread := (hplain _ _ hmatched).read
    have hread' := (hplain _ _ hmatched').read
    rw [heq, hread'] at hread
    rw [Option.some.inj hread]
  unfold PathLibrary.expandWildcardPaths PathLibrary.unmarshal at h
  by_cases hnumbers : data.allNumbers lib.isFloat
  · rw [if_pos hnumbers] at h
    have hpaths := Except.ok.inj h
    rw [← hpaths]
    dsimp only
    rw [collect_mapNumber]
    exact eraseDups_of_nodup ((nodup_collected _ _ _).map_on hinjective)
  · rw [if_neg hnumbers] at h
    cases h

/-- The deletions of `deleteValue`, which leaves out a blank path. -/
def deleteNotBlank (paths : List (List String)) (doc : Json F) : Json F :=
  paths.foldl
    (fun doc components =>
      if trimSpace (".".intercalate components) = "" then doc else deleteAt components doc) doc

theorem run_deleteValue (hlib : lib.Documented anyName) (length : Nat) :
    ∀ {paths : List (List String)} (doc : Json F),
      (∀ path ∈ paths, path.length = length ∧ readPath (".".intercalate path) = some path ∧
        entersText path doc = false) →
      (paths.map (".".intercalate ·)).foldlM lib.deleteValue doc
        = .ok (deleteNotBlank paths doc) := by
  intro paths
  induction paths with
  | nil => intro doc _; rfl
  | cons path rest ih =>
    intro doc h
    obtain ⟨⟨hlength, hpath, hclear⟩, hrest⟩ := List.forall_mem_cons.mp h
    have hfirst : lib.deleteValue doc (".".intercalate path)
        = .ok (if trimSpace (".".intercalate path) = "" then doc else deleteAt path doc) := by
      unfold PathLibrary.deleteValue
      by_cases hblank : trimSpace (".".intercalate path) = ""
      · rw [if_pos hblank, if_pos hblank]
      · rw [if_neg hblank, if_neg hblank,
          hlib.delete doc _ path ⟨hpath, rfl, all_anyName path⟩ hclear]
        rfl
    rw [List.map_cons, List.foldlM_cons, hfirst]
    refine ih _ fun other hmem => ?_
    obtain ⟨hother, hread, hclearOther⟩ := hrest other hmem
    refine ⟨hother, hread, ?_⟩
    by_cases hblank : trimSpace (".".intercalate path) = ""
    · rw [if_pos hblank]
      exact hclearOther
    · rw [if_neg hblank, entersText_deleteAt (by omega) doc]
      exact hclearOther

theorem deleteNotBlank_eq : ∀ {paths : List (List String)} (doc : Json F),
    (∀ path ∈ paths, trimSpace (".".intercalate path) ≠ "") →
      deleteNotBlank paths doc = deleteAll paths doc := by
  intro paths
  induction paths with
  | nil => intro doc _; rfl
  | cons path rest ih =>
    intro doc h
    obtain ⟨hpath, hrest⟩ := List.forall_mem_cons.mp h
    show deleteNotBlank rest (if _ then doc else deleteAt path doc) = _
    rw [if_neg hpath, ih _ hrest]
    rfl

/-- No matched field of the root has a name of spaces alone. -/
def NoneBlank (segments : List String) (doc : Json F) : Prop :=
  ∀ name, MatchedAt segments doc [.field name] → trimSpace name ≠ ""

theorem join_not_blank (h : ∀ component, components = [component] → trimSpace component ≠ "")
    (hne : components ≠ []) : trimSpace (".".intercalate components) ≠ "" := by
  cases components with
  | nil => exact absurd rfl hne
  | cons component rest =>
    cases rest with
    | nil =>
      rw [String.intercalate_singleton]
      exact h component rfl
    | cons next rest =>
      intro hblank
      have hdot : '.' ∈ (".".intercalate (component :: next :: rest)).toList := by
        rw [String.intercalate_cons_cons]
        simp
      exact absurd (trimSpace_eq_empty_iff.mp hblank '.' hdot) (by decide)

theorem not_space_of_digit {c : Char} (h : c.isDigit = true) : isSpace c = false := by
  have hrange : 48 ≤ c.toNat ∧ c.toNat ≤ 57 := by
    simp only [Char.isDigit, Bool.and_eq_true, decide_eq_true_eq, UInt32.le_iff_toNat_le] at h
    exact h
  simp only [isSpace, List.mem_cons, List.not_mem_nil, Bool.or_eq_false_iff, decide_eq_false_iff_not,
    Bool.and_eq_false_iff, or_false, not_or]
  omega

theorem not_blank_of_digits {index : Nat} (h : itemIndex component = some index) :
    trimSpace component ≠ "" := by
  obtain ⟨hne, hdigits, -⟩ := itemIndex_eq_some h
  intro hblank
  rw [trimSpace_eq_empty_iff] at hblank
  cases hchars : component.toList with
  | nil => exact hne (String.toList_eq_nil_iff.mp hchars)
  | cons c rest =>
    have hmem : c ∈ component.toList := by
      rw [hchars]
      exact List.mem_cons_self
    have hdigit := hdigits c hmem
    have hspace := hblank c hmem
    rw [not_space_of_digit hdigit] at hspace
    cases hspace

theorem not_blank_of_matched {doc : Json F} {steps : List Step}
    (h : Matched segments doc components steps) (hsegments : segments ≠ [])
    (hnone : NoneBlank segments doc) : trimSpace (".".intercalate components) ≠ "" := by
  refine join_not_blank ?_ ?_
  · rintro component rfl
    cases h with
    | anyField hsegment hchild hrest =>
      cases hrest
      refine hnone _ ⟨?_, ?_⟩
      · rw [match_single, segmentMatches_star hsegment]
      · simp [Json.at, hchild]
    | anyItem => exact not_blank_of_digits (itemIndex_toString _)
    | field hempty | newField hempty =>
      rw [trimSpace_trimSpace]
      exact hempty
    | item hindex =>
      rw [trimSpace_trimSpace]
      intro hempty
      rw [hempty, atoi_empty] at hindex
      cases hindex
  · intro hnil
    have hlength := h.length_eq
    rw [hnil] at hlength
    exact hsegments (List.length_eq_zero_iff.mp (by rw [← hlength.2, ← hlength.1]; rfl))

theorem blank_left {name : String} (hmatched : MatchedAt segments data [.field name])
    (hblank : trimSpace name = "") :
    deleteNotBlank (collectWildcardPaths segments data []) data
      ≠ data.without (pathMatches segments) := by
  have hlength := length_of_match hmatched.isMatch
  obtain ⟨segment, rfl⟩ : ∃ segment, segments = [segment] :=
    List.length_eq_one_iff.mp hlength.symm
  cases data with
  | scalar value => exact absurd hmatched.there (by simp [Json.at])
  | array items => exact absurd hmatched.there (by simp [Json.at])
  | object fields =>
    obtain ⟨child, hchild⟩ : ∃ child, getField name fields = some child := by
      have hthere := hmatched.there
      cases hfield : getField name fields with
      | none => simp [Json.at, hfield] at hthere
      | some child => exact ⟨child, rfl⟩
    -- every path is one field, and none of them is deleted under the blank name
    have hkept : ∀ (paths : List (List String)) (now : List (String × Json F)),
        (∀ path ∈ paths, ∃ key, path = [key]) → getField name now = some child →
          ∃ now', deleteNotBlank paths (.object now) = .object now' ∧
            getField name now' = some child := by
      intro paths
      induction paths with
      | nil => intro now _ hnow; exact ⟨now, rfl, hnow⟩
      | cons path rest ih =>
        intro now hpaths hnow
        obtain ⟨⟨key, rfl⟩, hrest⟩ := List.forall_mem_cons.mp hpaths
        have hfirst : deleteNotBlank ([key] :: rest) (.object now)
            = deleteNotBlank rest (if trimSpace (".".intercalate [key]) = ""
                then .object now else deleteAt [key] (.object now)) := rfl
        rw [hfirst, String.intercalate_singleton]
        by_cases hkey : trimSpace key = ""
        · rw [if_pos hkey]
          exact ih now hrest hnow
        · have hne : name ≠ key := by
            rintro rfl
            exact hkey hblank
          rw [if_neg hkey, deleteAt_object]
          exact ih _ hrest (by rw [getField_removeField_ne hne, hnow])
    have hpaths : ∀ path ∈ collectWildcardPaths [segment] (.object fields) [],
        ∃ key, path = [key] := by
      intro path hpath
      obtain ⟨components, steps, rfl, h⟩ := (collects _ _ _ _).mp hpath
      exact List.length_eq_one_iff.mp (h.length_eq.1.trans h.length_eq.2)
    obtain ⟨now, hnow, hfound⟩ := hkept _ fields hpaths hchild
    rw [hnow, without_object]
    intro heq
    have hmem := mem_of_getField (Json.object.inj heq ▸ hfound)
    have hmatch := hmatched.isMatch
    rw [match_single] at hmatch
    rw [List.mem_filter, hmatch] at hmem
    exact absurd hmem.2 (by decide)

theorem applyDelete_eq (hlib : lib.Documented anyName)
    (hwildcard : contains (lib.processNegativeIndex data path) "*" = true)
    (hplain : PlainPlaces (lib.processNegativeIndex data path) data)
    (hexpand : lib.expandWildcardPaths data (lib.processNegativeIndex data path) = .ok paths) :
    lib.applyDelete data path
      = .ok (deleteNotBlank
          (collectWildcardPaths (split (lib.processNegativeIndex data path) '.') data []) data) := by
  unfold PathLibrary.applyDelete PathLibrary.applyPaths PathLibrary.resolveOperationPaths
  rw [if_pos hwildcard, hexpand]
  dsimp only
  rw [expand_eq hplain hexpand]
  refine run_deleteValue hlib (split (lib.processNegativeIndex data path) '.').length data
    fun components hcollected => ?_
  obtain ⟨components, steps, rfl, hmatched⟩ := (collects _ _ _ _).mp hcollected
  have hleads := hmatched.leadsTo (hplain _ _ hmatched)
  exact ⟨hmatched.length_eq.1.trans hmatched.length_eq.2, hleads.read,
    entersText_of_locate hleads.located⟩

/-- **A deletion by a wildcard path removes what it matches exactly where no array holds two matched
items**, and no matched field of the root has a blank name. -/
theorem delete_exact_iff (hlib : lib.Documented anyName) {data : Json F} {path : String}
    {paths : List String} (hnames : data.namesOnce = true)
    (hwildcard : contains (lib.processNegativeIndex data path) "*" = true)
    (hplain : PlainPlaces (lib.processNegativeIndex data path) data)
    (hexpand : lib.expandWildcardPaths data (lib.processNegativeIndex data path) = .ok paths) :
    ∃ result, lib.applyDelete data path = .ok result ∧
      (result = data.without (pathMatches (split (lib.processNegativeIndex data path) '.')) ↔
        Unshifted (split (lib.processNegativeIndex data path) '.') data ∧
          NoneBlank (split (lib.processNegativeIndex data path) '.') data) := by
  refine ⟨_, applyDelete_eq hlib hwildcard hplain hexpand, ?_⟩
  have hsegments : split (lib.processNegativeIndex data path) '.' ≠ [] := by
    simp [split]
  have hsteps : PlainSteps (split (lib.processNegativeIndex data path) '.') data :=
    fun components steps h => (hplain components steps h).plain
  have hiff := deleteAll_eq_iff hnames hsteps
  generalize split (lib.processNegativeIndex data path) '.' = segments at hsegments hsteps hiff
  by_cases hnone : NoneBlank segments data
  · have hrun : deleteNotBlank (collectWildcardPaths segments data []) data
        = deleteAll (collectWildcardPaths segments data []) data := by
      refine deleteNotBlank_eq data fun components hcollected => ?_
      obtain ⟨components, steps, rfl, hmatched⟩ := (collects _ _ _ _).mp hcollected
      exact not_blank_of_matched hmatched hsegments hnone
    rw [hrun, hiff]
    exact ⟨fun h => ⟨h, hnone⟩, fun h => h.1⟩
  · constructor
    · intro h
      simp only [NoneBlank, not_forall, not_not] at hnone
      obtain ⟨name, hmatched, hblank⟩ := hnone
      exact absurd h (blank_left hmatched hblank)
    · intro h
      exact absurd h.2 hnone

/-! ### The fields of two items, and two items -/

def twoMaps : Json Nat := .array (List.replicate 2 (.object [("b", .scalar .null)]))

theorem twoMaps_plain : PlainPlaces "*.*" twoMaps := by
  intro components steps hmatched
  have hsplit : split "*.*" '.' = ["*", "*"] := by decide
  have hnone : atoi (trimSpace "*") = none := by decide
  rw [hsplit] at hmatched
  cases hmatched with
  | item hindex =>
    rw [hnone] at hindex
    cases hindex
  | @anyItem _ index _ _ _ _ child _ hchild hrest =>
    obtain ⟨hlt, hreplicate⟩ := List.getElem?_eq_some_iff.mp hchild
    obtain rfl : child = .object [("b", .scalar .null)] := by
      rw [← hreplicate, List.getElem_replicate]
    cases hrest with
    | @anyField _ name _ _ _ _ _ _ hfield hrest =>
      cases hrest
      have hname := mem_of_getField hfield
      obtain rfl : name = "b" := (Prod.mk.inj (List.mem_singleton.mp hname)).1
      refine ⟨?_, .cons (itemIndex_toString index) (.cons ?_ .nil)⟩
      · rw [String.intercalate_cons_cons]
        simp
      · exact (by decide +kernel : PlainComponent "b")
    | field _ hne | newField _ hne => exact absurd (by decide) hne

/-- The fields of two items are removed. -/
theorem nested_fields_removed : ∃ result, plainLibrary.applyDelete twoMaps "*.*" = .ok result ∧
    result = twoMaps.without (pathMatches (split (plainLibrary.processNegativeIndex twoMaps "*.*")
      '.')) := by
  obtain ⟨result, hresult, hiff⟩ := @delete_exact_iff Nat plainLibrary
    (plainLibrary_documented anyName) twoMaps "*.*" ["0.b", "1.b"] (by decide +kernel)
    (by decide +kernel) twoMaps_plain (by decide +kernel)
  have hsplit : split (plainLibrary.processNegativeIndex twoMaps "*.*") '.' = ["*", "*"] := by
    decide +kernel
  rw [hsplit] at hiff ⊢
  refine ⟨result, hresult, hiff.mpr ⟨?_, ?_⟩⟩
  · -- what is matched in an item is no item
    intro parent i j hi _
    obtain ⟨step, rfl⟩ : ∃ step, parent = [step] :=
      List.length_eq_one_iff.mp (by simpa using length_of_match hi.isMatch)
    have hthere := hi.there
    cases step with
    | field name => simp [twoMaps, Json.at] at hthere
    | item index =>
      rw [List.singleton_append, at_cons, twoMaps, at_item, List.getElem?_replicate] at hthere
      by_cases hindex : index < 2
      · simp [hindex, Json.at] at hthere
      · simp [hindex] at hthere
  · intro name hmatched
    exact absurd hmatched.there (by simp [twoMaps, Json.at])

/-- The second item of an array is left. -/
theorem second_item_left : ¬ ∀ (data result : Json Nat) (path : String),
    data.namesOnce = true → contains (plainLibrary.processNegativeIndex data path) "*" = true →
      plainLibrary.applyDelete data path = .ok result →
        result = data.without
          (pathMatches (split (plainLibrary.processNegativeIndex data path) '.')) := by
  intro hall
  have h := hall (.array [.scalar (.string "x"), .scalar (.string "y")])
    (.array [.scalar (.string "y")]) "*" (by decide +kernel) (by decide +kernel) rfl
  have hwithout : (Json.array [.scalar (.string "x"), .scalar (.string "y")] : Json Nat).without
      (pathMatches (split "*" '.')) = .array [] := by
    rw [Json.without, itemsWithout_of_removed]
    intro index
    have hsplit : split "*" '.' = ["*"] := by decide
    rw [hsplit, match_single, segmentMatches_star (by decide)]
  exact absurd (h.trans hwithout) (by simp)

end JulongApi.Override
