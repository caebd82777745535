/-
A legacy override sets its keys literally.

Every key is escaped and handed over as a path.  The escapes cover the dot, the backslash and two
of the characters that make a path a query; the others, and a colon at the beginning, keep their
meaning.  So the override is literal for every object exactly where its keys hold none of them.
-/
import JulongApi.Proofs.OverridePaths

namespace JulongApi.Override

open JsonTree

variable {F : Type} {lib : PathLibrary F}

/-! ### Escaped keys as paths -/

/-- The characters the escapes leave out. -/
def isBareQueryChar (c : Char) : Bool := c ∈ ['|', '#', '@']

structure LiteralKey (key : String) : Prop where
  noQuery : ∀ c ∈ key.toList, isBareQueryChar c = false
  noColon : key.toList.head? ≠ some ':'

def escapeChars (chars : List Char) : List Char :=
  chars.flatMap fun c => if c ∈ ['.', '*', '?', '\\'] then ['\\', c] else [c]

theorem toList_escape (key : String) :
    (escapeSjsonLiteralKey key).toList = escapeChars key.toList := by
  rw [escapeSjsonLiteralKey, String.toList_ofList]
  rfl

theorem escapeChars_cons (c : Char) (rest : List Char) :
    escapeChars (c :: rest)
      = (if c ∈ ['.', '*', '?', '\\'] then ['\\', c] else [c]) ++ escapeChars rest := rfl

theorem readComponents_escape_cons (start : Bool) (component : List Char) (c : Char)
    (rest : List Char) :
    readComponents start component (escapeChars (c :: rest)) =
      if isBareQueryChar c then none
      else if start && c = ':' then readComponents false component (escapeChars rest)
      else readComponents false (c :: component) (escapeChars rest) := by
  rw [escapeChars_cons]
  by_cases hspecial : c ∈ ['.', '*', '?', '\\']
  · have hbare : isBareQueryChar c = false ∧ c ≠ ':' := by
      simp only [List.mem_cons, List.not_mem_nil, or_false] at hspecial
      rcases hspecial with rfl | rfl | rfl | rfl <;> decide
    rw [if_pos hspecial]
    show readComponents start component ('\\' :: c :: escapeChars rest) = _
    rw [readComponents]
    simp [hbare.1, hbare.2]
  · rw [if_neg hspecial]
    simp only [List.mem_cons, List.not_mem_nil, or_false, not_or] at hspecial
    obtain ⟨hdot, hstar, hquestion, hescape⟩ := hspecial
    show readComponents start component (c :: escapeChars rest) = _
    have hquery : isQueryChar c = isBareQueryChar c := by
      simp [isQueryChar, isBareQueryChar, hstar, hquestion]
    rw [readComponents_other hescape hdot, hquery]

theorem readComponents_escape : ∀ (chars component : List Char),
    readComponents false component (escapeChars chars) =
      if chars.any isBareQueryChar then none
      else some [String.ofList (component.reverse ++ chars)] := by
  intro chars
  induction chars with
  | nil => intro component; simp [escapeChars, readComponents]
  | cons c rest ih =>
    intro component
    rw [readComponents_escape_cons, Bool.false_and, if_neg (by simp : ¬false = true), ih]
    by_cases hbare : isBareQueryChar c = true <;> simp [hbare]

variable {key : String} {α : Type}

theorem readPath_escape {c : Char} {rest : List Char} (hkey : key.toList = c :: rest) :
    readPath (escapeSjsonLiteralKey key) =
      if key.toList.any isBareQueryChar then none
      else if c = ':' then some [String.ofList rest]
      else some [key] := by
  have hne : escapeSjsonLiteralKey key ≠ "" := by
    intro h
    have hchars := toList_escape key
    rw [h, hkey, escapeChars_cons] at hchars
    by_cases hspecial : c ∈ ['.', '*', '?', '\\']
    · rw [if_pos hspecial] at hchars
      cases hchars
    · rw [if_neg hspecial] at hchars
      cases hchars
  have hwhole : String.ofList (c :: rest) = key := by
    rw [← hkey, String.ofList_toList]
  rw [readPath, if_neg hne, toList_escape, hkey, readComponents_escape_cons, readComponents_escape,
    readComponents_escape]
  by_cases hbare : isBareQueryChar c = true
  · simp [hbare]
  · by_cases hcolon : c = ':'
    · subst hcolon
      simp [hbare]
    · simp [hbare, hcolon, hwhole]

theorem readPath_literalKey (hne : key ≠ "") (h : LiteralKey key) :
    readPath (escapeSjsonLiteralKey key) = some [key] := by
  cases hkey : key.toList with
  | nil => exact absurd (String.toList_eq_nil_iff.mp hkey) hne
  | cons c rest =>
    have hany : key.toList.any isBareQueryChar = false := by
      rw [List.any_eq_false]
      intro c hc
      simp [h.noQuery c hc]
    have hcolon : c ≠ ':' := by
      have hhead := h.noColon
      rw [hkey] at hhead
      simpa using hhead
    rw [readPath_escape hkey, hany, if_neg (by simp), if_neg hcolon]

/-! ### One key -/

theorem setAt_name (fields : List (String × Json F)) (key : String) (value : Json F) :
    ∃ fields', setAt value [key] (.object fields) = some (.object fields') ∧
      getField key fields' = some value ∧
      ∀ name, name ≠ key → getField name fields' = getField name fields := by
  unfold setAt
  cases hchild : getField key fields with
  | some child =>
    refine ⟨setField key value fields, rfl, getField_setField_self _ _, ?_⟩
    intro name hname
    exact getField_setField_ne hname value fields
  | none =>
    refine ⟨fields ++ [(key, value)], rfl, getField_append_of_none hchild, ?_⟩
    intro name hname
    exact getField_append_ne hname value fields

theorem set_literalKey (hlib : lib.Documented anyName) (hne : key ≠ "") (h : LiteralKey key)
    (fields : List (String × Json F)) (value : Json F) :
    ∃ fields', lib.set (.object fields) (escapeSjsonLiteralKey key) value = .ok (.object fields') ∧
      getField key fields' = some value ∧
      ∀ name, name ≠ key → getField name fields' = getField name fields := by
  obtain ⟨fields', hset, hself, hother⟩ := setAt_name fields key value
  exact ⟨fields', hlib.setName _ _ _ _ _ (readPath_literalKey hne h) rfl hset, hself, hother⟩

/-! ### All keys -/

variable {name missed : String}

theorem getField_of_not_mem : ∀ {fields : List (String × α)},
    name ∉ fields.map (·.1) → getField name fields = none := by
  intro fields
  induction fields with
  | nil => intro _; rfl
  | cons field rest ih =>
    obtain ⟨other, value⟩ := field
    intro h
    have hother : other ≠ name := Ne.symm (List.ne_of_not_mem_cons h)
    rw [getField, if_neg hother, ih (List.not_mem_of_not_mem_cons h)]

theorem getField_of_mem {value : α} : ∀ {fields : List (String × α)},
    (fields.map (·.1)).Nodup → (name, value) ∈ fields → getField name fields = some value := by
  intro fields
  induction fields with
  | nil => intro _ h; cases h
  | cons field rest ih =>
    obtain ⟨other, old⟩ := field
    intro hnodup h
    rw [List.map_cons, List.nodup_cons] at hnodup
    rcases List.mem_cons.mp h with heq | hmem
    · cases heq
      rw [getField, if_pos rfl]
    · have hother : other ≠ name := by
        rintro rfl
        exact hnodup.1 (List.mem_map.mpr ⟨_, hmem, rfl⟩)
      rw [getField, if_neg hother, ih hnodup.2 hmem]

theorem getField_perm {fields order : List (String × α)} (hperm : order.Perm fields)
    (hnodup : (fields.map (·.1)).Nodup) (name : String) :
    getField name order = getField name fields := by
  have hnodup' : (order.map (·.1)).Nodup := ((hperm.map (·.1)).nodup_iff).mpr hnodup
  cases hget : getField name order with
  | some value =>
    have hmem := hperm.mem_iff.mp (mem_of_getField hget)
    exact (getField_of_mem hnodup hmem).symm
  | none =>
    cases hget' : getField name fields with
    | none => rfl
    | some value =>
      have hmem := hperm.mem_iff.mpr (mem_of_getField hget')
      rw [getField_of_mem hnodup' hmem] at hget
      cases hget

theorem legacy_of_literal (hlib : lib.Documented anyName) : ∀ {order fields : List (String × Json F)},
    (∀ entry ∈ order, entry.1 ≠ "" ∧ LiteralKey entry.1) → (order.map (·.1)).Nodup →
      ∃ fields', lib.applyOperationsLegacy (.object fields) order = .ok (.object fields') ∧
        ∀ name, getField name fields' = (getField name order).or (getField name fields) := by
  intro order
  induction order with
  | nil => intro fields _ _; exact ⟨fields, rfl, fun name => rfl⟩
  | cons entry rest ih =>
    obtain ⟨key, value⟩ := entry
    intro fields hliteral hnodup
    rw [List.map_cons, List.nodup_cons] at hnodup
    obtain ⟨⟨hne, hkey⟩, hrest⟩ := List.forall_mem_cons.mp hliteral
    obtain ⟨fields₁, hset, hself, hother⟩ := set_literalKey hlib hne hkey fields value
    obtain ⟨fields', hall, hget⟩ := @ih fields₁ hrest hnodup.2
    refine ⟨fields', ?_, ?_⟩
    · unfold PathLibrary.applyOperationsLegacy at hall ⊢
      rw [List.foldlM_cons, hset]
      exact hall
    · intro name
      rw [hget, getField]
      by_cases hname : key = name
      · subst hname
        rw [if_pos rfl, getField_of_not_mem hnodup.1, hself]
        rfl
      · rw [if_neg hname, hother name (Ne.symm hname)]

theorem set_misses (hlib : lib.Documented anyName) (hne : key ≠ "") (hmissed : ¬ LiteralKey missed)
    (hlongest : ¬ LiteralKey key → key.length ≤ missed.length) {fields : List (String × Json F)}
    {value new : Json F}
    (hset : lib.set (.object fields) (escapeSjsonLiteralKey key) value = .ok new)
    (hnone : getField missed fields = none) :
    ∃ fields', new = .object fields' ∧ getField missed fields' = none := by
  have hwritten : ∀ {path name : String}, readPath path = some [name] →
      lib.set (.object fields) path value = .ok new → missed ≠ name →
        ∃ fields', new = .object fields' ∧ getField missed fields' = none := by
    intro path name hpath hset hname
    obtain ⟨fields', hset', -, hother⟩ := setAt_name fields name value
    rw [hlib.setName _ _ _ _ _ hpath rfl hset'] at hset
    cases hset
    exact ⟨fields', rfl, by rw [hother missed hname, hnone]⟩
  cases hkey : key.toList with
  | nil => exact absurd (String.toList_eq_nil_iff.mp hkey) hne
  | cons c rest =>
    have hpath := readPath_escape hkey
    by_cases hany : key.toList.any isBareQueryChar = true
    · rw [if_pos hany] at hpath
      have hpathNe : escapeSjsonLiteralKey key ≠ "" := by
        intro h
        have hchars := toList_escape key
        rw [h, hkey, escapeChars_cons] at hchars
        by_cases hspecial : c ∈ ['.', '*', '?', '\\']
        · rw [if_pos hspecial] at hchars
          cases hchars
        · rw [if_neg hspecial] at hchars
          cases hchars
      obtain ⟨fields', rfl, hnone'⟩ := hlib.setQuery _ _ _ _ hpathNe hpath hset
      exact ⟨fields', rfl, hnone' missed hnone⟩
    · rw [if_neg hany] at hpath
      have hquery : ∀ c ∈ key.toList, isBareQueryChar c = false := by
        have hany' : key.toList.any isBareQueryChar = false := by simpa using hany
        simpa [List.any_eq_false] using hany'
      by_cases hcolon : c = ':'
      · rw [if_pos hcolon] at hpath
        refine hwritten hpath hset ?_
        rintro rfl
        have hnot : ¬ LiteralKey key := fun h => h.noColon (by rw [hkey, hcolon]; rfl)
        have hlength := hlongest hnot
        rw [← String.length_toList, hkey, String.length_ofList, List.length_cons] at hlength
        omega
      · rw [if_neg hcolon] at hpath
        refine hwritten hpath hset ?_
        rintro rfl
        exact hmissed ⟨hquery, by rw [hkey]; simpa using hcolon⟩

theorem legacy_misses (hlib : lib.Documented anyName) (hmissed : ¬ LiteralKey missed) :
    ∀ {order fields : List (String × Json F)} {new : Json F},
      (∀ entry ∈ order, entry.1 ≠ "") →
      (∀ entry ∈ order, ¬ LiteralKey entry.1 → entry.1.length ≤ missed.length) →
      getField missed fields = none → lib.applyOperationsLegacy (.object fields) order = .ok new →
        ∃ fields', new = .object fields' ∧ getField missed fields' = none := by
  intro order
  induction order with
  | nil =>
    intro fields new _ _ hnone h
    cases h
    exact ⟨fields, rfl, hnone⟩
  | cons entry rest ih =>
    intro fields new hne hlongest hnone h
    obtain ⟨hne, hneRest⟩ := List.forall_mem_cons.mp hne
    obtain ⟨hlong, hlongRest⟩ := List.forall_mem_cons.mp hlongest
    unfold PathLibrary.applyOperationsLegacy at h
    rw [List.foldlM_cons] at h
    cases hset : lib.set (.object fields) (escapeSjsonLiteralKey entry.1) entry.2 with
    | error message =>
      rw [hset] at h
      cases h
    | ok next =>
      rw [hset] at h
      obtain ⟨fields₁, rfl, hnone₁⟩ := set_misses hlib hne hmissed hlong hset hnone
      exact ih hneRest hlongRest hnone₁ h

theorem exists_longest {p : String → Prop} : ∀ {entries : List (String × Json F)},
    (∃ entry ∈ entries, p entry.1) →
      ∃ longest ∈ entries, p longest.1 ∧
        ∀ entry ∈ entries, p entry.1 → entry.1.length ≤ longest.1.length := by
  intro entries
  induction entries with
  | nil => rintro ⟨entry, hentry, -⟩; cases hentry
  | cons first rest ih =>
    rintro ⟨entry, hentry, hp⟩
    by_cases hrest : ∃ entry ∈ rest, p entry.1
    · obtain ⟨longest, hmem, hlongest, hle⟩ := ih hrest
      by_cases hfirst : p first.1 ∧ longest.1.length < first.1.length
      · refine ⟨first, by simp, hfirst.1, ?_⟩
        intro other hother hpOther
        rcases List.mem_cons.mp hother with rfl | hother
        · exact Nat.le_refl _
        · exact Nat.le_trans (hle other hother hpOther) (Nat.le_of_lt hfirst.2)
      · refine ⟨longest, List.mem_cons_of_mem _ hmem, hlongest, ?_⟩
        intro other hother hpOther
        rcases List.mem_cons.mp hother with rfl | hother
        · exact Nat.le_of_not_lt fun hlt => hfirst ⟨hpOther, hlt⟩
        · exact hle other hother hpOther
    · rcases List.mem_cons.mp hentry with rfl | hmem
      · refine ⟨entry, by simp, hp, ?_⟩
        intro other hother hpOther
        rcases List.mem_cons.mp hother with rfl | hother
        · exact Nat.le_refl _
        · exact absurd ⟨other, hother, hpOther⟩ hrest
      · exact absurd ⟨entry, hmem, hp⟩ hrest

/-- The old semantics of an override: its keys are assigned. -/
def Assigns (lib : PathLibrary F) (paramOverride : List (String × Json F)) : Prop :=
  ∀ fields order, order.Perm paramOverride →
    ∃ fields', lib.applyOperationsLegacy (.object fields) order = .ok (.object fields') ∧
      ∀ name, getField name fields' = (getField name paramOverride).or (getField name fields)

/-- **A legacy override assigns its keys, for every object and in every order, exactly where its
keys are literal.** -/
theorem legacy_assigns_iff (hlib : lib.Documented anyName) {paramOverride : List (String × Json F)}
    (hnodup : (paramOverride.map (·.1)).Nodup) (hne : ∀ entry ∈ paramOverride, entry.1 ≠ "") :
    Assigns lib paramOverride ↔ ∀ entry ∈ paramOverride, LiteralKey entry.1 := by
  constructor
  · intro hassigns
    by_contra hsome
    have hbad : ∃ entry ∈ paramOverride, ¬ LiteralKey entry.1 := by
      by_contra hnone
      exact hsome fun entry hentry => not_not.mp fun h => hnone ⟨entry, hentry, h⟩
    obtain ⟨longest, hmem, hnot, hlongest⟩ := exists_longest (p := fun key => ¬ LiteralKey key) hbad
    obtain ⟨fields', hrun, hget⟩ := hassigns [] paramOverride (List.Perm.refl _)
    obtain ⟨fields₁, heq, hnone⟩ := legacy_misses hlib hnot hne hlongest rfl hrun
    obtain rfl := (Json.object.injEq _ _).mp heq
    rw [hget, getField_of_mem hnodup hmem] at hnone
    cases hnone
  · intro hliteral fields order hperm
    have hnodup' : (order.map (·.1)).Nodup := ((hperm.map (·.1)).nodup_iff).mpr hnodup
    obtain ⟨fields', hrun, hget⟩ := @legacy_of_literal _ _ hlib order fields
      (fun entry hentry =>
        have hmem := hperm.mem_iff.mp hentry
        ⟨hne entry hmem, hliteral entry hmem⟩) hnodup'
    refine ⟨fields', hrun, ?_⟩
    intro name
    rw [hget, getField_perm hperm hnodup]

/-! ### A key with a dot, and one with a bar -/

/-- A key with a dot is escaped. -/
theorem dotted_key_assigned :
    Assigns (plainLibrary : PathLibrary Nat) [("a.b", .scalar (.number 1))] := by
  refine (legacy_assigns_iff (plainLibrary_documented anyName) (by simp) (by simp)).mpr ?_
  intro entry hentry
  obtain rfl := List.mem_singleton.mp hentry
  have hquery : ("a.b".toList.all fun c => !isBareQueryChar c) = true := by decide +kernel
  exact ⟨fun c hc => by simpa using List.all_eq_true.mp hquery c hc, by decide +kernel⟩

/-- A key with a bar is not: the object is left as it is. -/
theorem barred_key_missed : ¬ ∀ (lib : PathLibrary Nat), lib.Documented anyName →
    ∀ paramOverride : List (String × Json Nat), (paramOverride.map (·.1)).Nodup →
      (∀ entry ∈ paramOverride, entry.1 ≠ "") → Assigns lib paramOverride := by
  intro hall
  have hassigns := hall plainLibrary (plainLibrary_documented anyName) [("a|b", .scalar (.number 1))]
    (by simp) (by simp)
  obtain ⟨fields, hrun, hget⟩ := hassigns [] _ (List.Perm.refl _)
  have hempty : (plainLibrary : PathLibrary Nat).applyOperationsLegacy (.object [])
      [("a|b", .scalar (.number 1))] = .ok (.object []) := by rfl
  rw [hempty] at hrun
  cases hrun
  have hname := hget "a|b"
  cases hname

end JulongApi.Override
