/-
Paths that are joined from components, and read again.

Components that are joined with dots are read back as they were exactly where each of them is plain:
an escape or a colon that is dropped makes what is read shorter than the text, and a dot makes a
component of its own.
-/
import JulongApi.Override

namespace JulongApi.Override

open JsonTree

def isPlainChar (c : Char) : Bool := c ≠ '.' && c ≠ '\\' && !isQueryChar c

/-- A component that is itself in a path. -/
structure PlainComponent (component : String) : Prop where
  plain : ∀ c ∈ component.toList, isPlainChar c = true
  noColon : component.toList.head? ≠ some ':'

instance (component : String) : Decidable (PlainComponent component) :=
  decidable_of_iff (component.toList.all isPlainChar = true ∧ component.toList.head? ≠ some ':')
    ⟨fun h => ⟨List.all_eq_true.mp h.1, h.2⟩, fun h => ⟨List.all_eq_true.mpr h.plain, h.noColon⟩⟩

/-! ### Reading plain components -/

variable {c : Char} {rest : List Char} {component : String}

theorem isPlainChar_iff : isPlainChar c = true ↔ c ≠ '.' ∧ c ≠ '\\' ∧ isQueryChar c = false := by
  simp [isPlainChar, and_assoc]

theorem readComponents_other {start : Bool} {component : List Char} (hescape : c ≠ '\\')
    (hdot : c ≠ '.') :
    readComponents start component (c :: rest) =
      if isQueryChar c then none
      else if start && c = ':' then readComponents false component rest
      else readComponents false (c :: component) rest := by
  rw [readComponents, if_neg hdot]
  · intro h
    exact absurd h hescape
  · intro _ _ h
    exact absurd h hescape

theorem readComponents_dot (start : Bool) (component rest : List Char) :
    readComponents start component ('.' :: rest) =
      (readComponents true [] rest).map (String.ofList component.reverse :: ·) := by
  rw [readComponents, if_pos rfl]
  · intro h
    cases h
  · intro _ _ h
    cases h

theorem readComponents_plain : ∀ (piece component rest : List Char),
    (∀ c ∈ piece, isPlainChar c = true) →
      readComponents false component (piece ++ rest)
        = readComponents false (piece.reverse ++ component) rest := by
  intro piece
  induction piece with
  | nil => intro component rest _; rfl
  | cons c piece ih =>
    intro component rest h
    obtain ⟨hc, hpiece⟩ := List.forall_mem_cons.mp h
    obtain ⟨hdot, hescape, hquery⟩ := isPlainChar_iff.mp hc
    rw [List.cons_append, readComponents_other hescape hdot, hquery, if_neg (by simp),
      Bool.false_and, if_neg (by simp), ih _ _ hpiece]
    simp

theorem readComponents_component (h : PlainComponent component) (rest : List Char) :
    readComponents true [] (component.toList ++ '.' :: rest)
        = (readComponents true [] rest).map (component :: ·) ∧
      readComponents true [] component.toList = some [component] := by
  cases hchars : component.toList with
  | nil =>
    have hempty : component = "" := String.toList_eq_nil_iff.mp hchars
    subst hempty
    exact ⟨readComponents_dot true [] rest, rfl⟩
  | cons c piece =>
    have hplain := h.plain
    have hcolon := h.noColon
    rw [hchars] at hplain hcolon
    obtain ⟨hc, hpiece⟩ := List.forall_mem_cons.mp hplain
    obtain ⟨hdot, hescape, hquery⟩ := isPlainChar_iff.mp hc
    have hnotColon : c ≠ ':' := by simpa using hcolon
    have hwhole : String.ofList ((piece.reverse ++ [c]).reverse) = component := by
      rw [List.reverse_append, List.reverse_reverse, List.reverse_singleton,
        List.singleton_append, ← hchars, String.ofList_toList]
    have hfirst : ∀ tail, readComponents true [] (c :: tail) = readComponents false [c] tail := by
      intro tail
      rw [readComponents_other hescape hdot, hquery, if_neg (by simp), Bool.true_and,
        if_neg (by simpa using hnotColon)]
    constructor
    · rw [List.cons_append, hfirst, readComponents_plain piece [c] _ hpiece, readComponents_dot,
        hwhole]
    · have hend := readComponents_plain piece [c] [] hpiece
      rw [List.append_nil] at hend
      rw [hfirst, hend, readComponents, hwhole]

theorem readComponents_join : ∀ {components : List String}, components ≠ [] →
    (∀ component ∈ components, PlainComponent component) →
      readComponents true [] (".".intercalate components).toList = some components := by
  intro components
  induction components with
  | nil => intro h; exact absurd rfl h
  | cons component rest ih =>
    intro _ h
    obtain ⟨hcomponent, hrest⟩ := List.forall_mem_cons.mp h
    cases rest with
    | nil =>
      rw [String.intercalate_singleton]
      exact (readComponents_component hcomponent []).2
    | cons next others =>
      have hjoin : (".".intercalate (component :: next :: others)).toList
          = component.toList ++ '.' :: (".".intercalate (next :: others)).toList := by
        rw [String.intercalate_cons_cons]
        simp
      rw [hjoin, (readComponents_component hcomponent _).1, ih (by simp) hrest]
      rfl

/-! ### What is read of a text -/

theorem ne_escape (hfirst : c = '\\' → rest = [] → False)
    (hsecond : ∀ next others, c = '\\' → rest = next :: others → False) : c ≠ '\\' := by
  intro h
  cases rest with
  | nil => exact hfirst h rfl
  | cons next others => exact hsecond next others h rfl

theorem readComponents_head (start : Bool) (component chars : List Char) :
    ∀ {head : String} {tail : List String},
      readComponents start component chars = some (head :: tail) →
        ∃ used after piece, chars = used ++ after ∧ head.toList = component.reverse ++ piece ∧
          (after = [] ∧ tail = [] ∨
            ∃ rest, after = '.' :: rest ∧ readComponents true [] rest = some tail) ∧
          piece.length ≤ used.length ∧
          (piece.length = used.length → (∀ c ∈ piece, isPlainChar c = true) ∧
            (start = true → piece.head? ≠ some ':')) ∧
          ('.' ∈ used → piece.idxOf '.' < used.idxOf '.') := by
  induction start, component, chars using readComponents.induct with
  | case1 start component =>
    intro head tail h
    rw [readComponents] at h
    cases h
    exact ⟨[], [], [], by simp⟩
  | case2 start component =>
    intro head tail h
    rw [readComponents] at h
    cases h
    exact ⟨['\\'], [], [], by simp⟩
  | case3 start component c rest ih =>
    intro head tail h
    rw [readComponents] at h
    obtain ⟨used, after, piece, rfl, hhead, hafter, hle, -, hdot⟩ := ih h
    refine ⟨'\\' :: c :: used, after, c :: piece, by simp, by simpa using hhead, hafter, ?_, ?_, ?_⟩
    · simp only [List.length_cons]
      omega
    · intro heq
      simp only [List.length_cons] at heq
      omega
    · intro hmem
      have hescape : '\\' ≠ '.' := by decide
      rw [List.idxOf_cons_ne (c :: used) hescape]
      by_cases hc : c = '.'
      · subst hc
        simp
      · have hused : '.' ∈ used := by simpa [Ne.symm hc] using hmem
        rw [List.idxOf_cons_ne _ hc, List.idxOf_cons_ne _ hc]
        have := hdot hused
        omega
  | case4 start component rest hfirst hsecond ih =>
    intro head tail h
    rw [readComponents_dot] at h
    obtain ⟨tail', hrest, hcons⟩ := Option.map_eq_some_iff.mp h
    cases hcons
    exact ⟨[], '.' :: rest, [], by simp [hrest]⟩
  | case5 start component c rest hfirst hsecond hdot hquery =>
    intro head tail h
    rw [readComponents_other (ne_escape hfirst hsecond) hdot, if_pos hquery] at h
    cases h
  | case6 start component c rest hfirst hsecond hdot hquery hcolon ih =>
    intro head tail h
    rw [readComponents_other (ne_escape hfirst hsecond) hdot, if_neg hquery, if_pos hcolon] at h
    obtain ⟨used, after, piece, rfl, hhead, hafter, hle, -, hlater⟩ := ih h
    refine ⟨c :: used, after, piece, by simp, hhead, hafter, ?_, ?_, ?_⟩
    · simp only [List.length_cons]
      omega
    · intro heq
      simp only [List.length_cons] at heq
      omega
    · intro hmem
      have hused : '.' ∈ used := by simpa [Ne.symm hdot] using hmem
      rw [List.idxOf_cons_ne _ hdot]
      have := hlater hused
      omega
  | case7 start component c rest hfirst hsecond hdot hquery hcolon ih =>
    intro head tail h
    have hescape := ne_escape hfirst hsecond
    rw [readComponents_other hescape hdot, if_neg hquery, if_neg hcolon] at h
    obtain ⟨used, after, piece, rfl, hhead, hafter, hle, hplain, hlater⟩ := ih h
    refine ⟨c :: used, after, c :: piece, by simp, by simpa using hhead, hafter, ?_, ?_, ?_⟩
    · simp only [List.length_cons]
      omega
    · intro heq
      simp only [List.length_cons, Nat.add_right_cancel_iff] at heq
      refine ⟨List.forall_mem_cons.mpr
        ⟨isPlainChar_iff.mpr ⟨hdot, hescape, by simpa using hquery⟩, (hplain heq).1⟩, ?_⟩
      intro hstart
      simpa [hstart] using hcolon
    · intro hmem
      have hused : '.' ∈ used := by simpa [Ne.symm hdot] using hmem
      rw [List.idxOf_cons_ne _ hdot, List.idxOf_cons_ne _ hdot]
      have := hlater hused
      omega

theorem plain_of_head {tail : List String}
    (h : readComponents true [] (component.toList ++ '.' :: rest) = some (component :: tail)) :
    PlainComponent component ∧ readComponents true [] rest = some tail := by
  obtain ⟨used, after, piece, hchars, hpiece, hafter, hle, hplain, hlater⟩ :=
    readComponents_head true [] _ h
  rw [List.reverse_nil, List.nil_append] at hpiece
  rw [hpiece] at hchars
  obtain ⟨more, rfl⟩ : piece <+: used :=
    List.prefix_of_prefix_length_le (List.prefix_append piece ('.' :: rest)) ⟨after, hchars.symm⟩ hle
  rw [List.append_assoc, List.append_cancel_left_eq] at hchars
  cases more with
  | nil =>
    rw [List.nil_append] at hchars
    rw [List.append_nil] at hplain
    refine ⟨⟨by rw [hpiece]; exact (hplain rfl).1, by rw [hpiece]; exact (hplain rfl).2 rfl⟩, ?_⟩
    rcases hafter with ⟨rfl, -⟩ | ⟨rest', rfl, hrest⟩
    · cases hchars
    · cases hchars
      exact hrest
  | cons c more =>
    -- the dot behind the component would be read as one of its characters
    rw [List.cons_append] at hchars
    obtain rfl := (List.cons.inj hchars).1
    have hdot := hlater (by simp)
    by_cases hmem : '.' ∈ piece
    · rw [List.idxOf_append_of_mem hmem] at hdot
      omega
    · rw [List.idxOf_append_of_notMem hmem, List.idxOf_of_notMem hmem] at hdot
      simp at hdot

theorem plain_of_last {tail : List String}
    (h : readComponents true [] component.toList = some (component :: tail)) :
    PlainComponent component := by
  obtain ⟨used, after, piece, hchars, hpiece, -, hle, hplain, -⟩ := readComponents_head true [] _ h
  rw [List.reverse_nil, List.nil_append] at hpiece
  rw [hpiece] at hchars
  have hlength : piece.length = used.length := by
    have := congrArg List.length hchars
    rw [List.length_append] at this
    omega
  exact ⟨by rw [hpiece]; exact (hplain hlength).1, by rw [hpiece]; exact (hplain hlength).2 rfl⟩

theorem plain_of_read : ∀ {components read : List String},
    List.Forall₂ (fun component other => PlainComponent component ∨ component = other)
      components read →
      readComponents true [] (".".intercalate components).toList = some read →
        ∀ component ∈ components, PlainComponent component := by
  intro components
  induction components with
  | nil => intro read _ _ component hmem; cases hmem
  | cons component rest ih =>
    intro read hforall hread
    cases hforall with
    | @cons _ other _ others hfirst hothers =>
      cases rest with
      | nil =>
        rw [String.intercalate_singleton] at hread
        refine List.forall_mem_singleton.mpr ?_
        rcases hfirst with hplain | rfl
        · exact hplain
        · exact plain_of_last hread
      | cons next rest =>
        have hjoin : (".".intercalate (component :: next :: rest)).toList
            = component.toList ++ '.' :: (".".intercalate (next :: rest)).toList := by
          rw [String.intercalate_cons_cons]
          simp
        rw [hjoin] at hread
        rcases hfirst with hplain | rfl
        · rw [(readComponents_component hplain _).1] at hread
          obtain ⟨read, hrest, hcons⟩ := Option.map_eq_some_iff.mp hread
          cases hcons
          exact List.forall_mem_cons.mpr ⟨hplain, ih hothers hrest⟩
        · obtain ⟨hplain, hrest⟩ := plain_of_head hread
          exact List.forall_mem_cons.mpr ⟨hplain, ih hothers hrest⟩

/-- **Joined components are read back exactly where they are plain.** -/
theorem readPath_join_iff (components : List String) :
    readPath (".".intercalate components) = some components ↔
      ".".intercalate components ≠ "" ∧ ∀ component ∈ components, PlainComponent component := by
  constructor
  · intro h
    unfold readPath at h
    obtain ⟨hempty, h⟩ := Option.ite_none_left_eq_some.mp h
    refine ⟨hempty, ?_⟩
    exact plain_of_read (List.forall₂_same.mpr fun _ _ => .inr rfl) h
  · rintro ⟨hne, hplain⟩
    have hsome : components ≠ [] := by
      rintro rfl
      exact hne String.intercalate_nil
    rw [readPath, if_neg hne, readComponents_join hsome hplain]

/-! ### A library -/

variable {F : Type}

/-- A library that knows the paths that name their components, and changes nothing by a query. -/
def plainLibrary : PathLibrary F where
  get := fun doc path =>
    if path = "" then getAt [""] doc
    else (readPath path).bind fun components => getAt components doc
  set := fun doc path value =>
    match readPath path with
    | none => if path = "" then .error "path cannot be empty" else .ok doc
    | some components =>
      match setAt value components doc with
      | some new => .ok new
      | none => .error "cannot set array element for non-numeric key"
  delete := fun doc path =>
    match readPath path with
    | none => .error "cannot delete value from a complex path"
    | some components => .ok (deleteAt components doc)
  isFloat := fun _ => true
  float := id

theorem plainLibrary_documented (literal : String → Bool) :
    (plainLibrary : PathLibrary F).Documented literal where
  get := by
    intro doc path components hpath
    have hne : path ≠ "" := by
      rintro rfl
      cases hpath.read
    simp [plainLibrary, hne, hpath.read]
  getEmpty := fun _ => rfl
  set := by
    intro doc path components value new hpath _ hset
    simp [plainLibrary, hpath.read, hset]
  setFails := by
    intro doc path components value hpath _ hset
    simp [plainLibrary, hpath.read, hset]
  setName := by
    intro fields path name value new hpath _ hset
    simp [plainLibrary, hpath, hset]
  delete := by
    intro doc path components hpath _
    simp [plainLibrary, hpath.read]
  setQuery := by
    intro fields path value new hne hpath hset
    simp only [plainLibrary, hpath, if_neg hne] at hset
    cases hset
    exact ⟨fields, rfl, fun name h => h⟩

end JulongApi.Override
