/-
Marks in a text, and what is put in their places.

A text is read from left to right into characters and marks; to replace the marks is to write the
pieces again with something else for each mark.  Marks that do not overlap one another can be
replaced at once, or one kind after another.  The second comes to the first exactly where what is
put in makes no new mark: each kind stands in the text, when its turn comes, as often as it did in
the beginning.
-/
import Mathlib.Data.List.Basic
import Mathlib.Data.List.Infix

namespace Replace

variable {α ι : Type*}

/-- A text, read. -/
inductive Piece (α ι : Type*) where
  | char (c : α)
  | hole (i : ι)
deriving DecidableEq, Repr

def fill (value : ι → List α) (ps : List (Piece α ι)) : List α :=
  ps.flatMap fun
    | .char c => [c]
    | .hole i => value i

theorem fill_char (value : ι → List α) (c : α) (ps : List (Piece α ι)) :
    fill value (.char c :: ps) = c :: fill value ps := rfl

theorem fill_hole (value : ι → List α) (i : ι) (ps : List (Piece α ι)) :
    fill value (.hole i :: ps) = value i ++ fill value ps := rfl

section Holes

variable [DecidableEq ι]

def holes (i : ι) (ps : List (Piece α ι)) : Nat :=
  ps.countP fun
    | .char _ => false
    | .hole j => j = i

theorem holes_char (i : ι) (c : α) (ps : List (Piece α ι)) :
    holes i (.char c :: ps) = holes i ps := List.countP_cons_of_neg Bool.false_ne_true

theorem holes_self (i : ι) (ps : List (Piece α ι)) :
    holes i (.hole i :: ps) = 1 + holes i ps := by
  rw [Nat.add_comm]
  exact List.countP_cons_of_pos (decide_eq_true rfl)

theorem holes_other {i j : ι} (h : j ≠ i) (ps : List (Piece α ι)) :
    holes i (.hole j :: ps) = holes i ps :=
  List.countP_cons_of_neg (by simpa using h)

end Holes

/-- One is the beginning of the other. -/
def Meets (first second : List α) : Prop := first <+: second ∨ second <+: first

variable {rest text : List α}

theorem meets_of_starts {first second : List α} (h : second <+: first ++ rest) :
    Meets first second :=
  List.prefix_or_prefix_of_prefix (List.prefix_append first rest) h

variable [DecidableEq α]

/-- The pieces of a text behind its first `skip` characters: at each place the first mark that
stands there. -/
def pieces (mark : ι → List α) (all : List ι) : Nat → List α → List (Piece α ι)
  | _, [] => []
  | skip + 1, _ :: rest => pieces mark all skip rest
  | 0, c :: rest =>
    match all.find? fun i => (mark i).isPrefixOf (c :: rest) with
    | some i => .hole i :: pieces mark all ((mark i).length - 1) rest
    | none => .char c :: pieces mark all 0 rest

def replaceAll (old new text : List α) : List α :=
  fill (fun _ : Unit => new) (pieces (fun _ => old) [()] 0 text)

/-- No place that is replaced begins in a text and ends in the one behind it. -/
def uncut (old behind : List α) : Nat → List α → Bool
  | skip, [] => skip == 0
  | skip + 1, _ :: rest => uncut old behind skip rest
  | 0, c :: rest =>
    if old.isPrefixOf (c :: (rest ++ behind)) then uncut old behind (old.length - 1) rest
    else uncut old behind 0 rest

/-- No place that is replaced lies across the end of a part. -/
def noneCut (old : List α) : List (List α) → Bool
  | [] => true
  | part :: rest => uncut old rest.flatten 0 part && noneCut old rest

def occurrences (old : List α) : List α → Nat
  | [] => 0
  | c :: rest => (if old.isPrefixOf (c :: rest) then 1 else 0) + occurrences old rest

/-! ### Reading -/

section Read

variable {mark : ι → List α} {all : List ι}

theorem pieces_drop : ∀ (text : List α) (skip : Nat),
    pieces mark all skip text = pieces mark all 0 (text.drop skip) := by
  intro text
  induction text with
  | nil => intro skip; simp [pieces]
  | cons c rest ih =>
    intro skip
    cases skip with
    | zero => rfl
    | succ skip => exact ih skip

theorem pieces_of_some {i : ι} {rest : List α} (hne : mark i ≠ [])
    (hfind : all.find? (fun j => (mark j).isPrefixOf (mark i ++ rest)) = some i) :
    pieces mark all 0 (mark i ++ rest) = .hole i :: pieces mark all 0 rest := by
  obtain ⟨c, tail, hmark⟩ := List.exists_cons_of_ne_nil hne
  rw [hmark, List.cons_append] at hfind ⊢
  rw [pieces, hfind]
  dsimp only
  rw [pieces_drop, hmark, List.length_cons, Nat.add_sub_cancel, List.drop_left]

theorem pieces_of_none {c : α} {rest : List α}
    (hfind : all.find? (fun j => (mark j).isPrefixOf (c :: rest)) = none) :
    pieces mark all 0 (c :: rest) = .char c :: pieces mark all 0 rest := by
  rw [pieces, hfind]

theorem read_induction {P : List α → Prop} (hne : ∀ i, mark i ≠ []) (hnil : P [])
    (hhole : ∀ i rest, all.find? (fun j => (mark j).isPrefixOf (mark i ++ rest)) = some i →
      P rest → P (mark i ++ rest))
    (hchar : ∀ c rest, all.find? (fun j => (mark j).isPrefixOf (c :: rest)) = none →
      P rest → P (c :: rest)) (text : List α) : P text := by
  induction hn : text.length using Nat.strong_induction_on generalizing text with
  | _ n ih =>
    cases text with
    | nil => exact hnil
    | cons c rest =>
      cases hfind : all.find? fun j => (mark j).isPrefixOf (c :: rest) with
      | none => exact hchar c rest hfind (ih _ (by simp [← hn]) rest rfl)
      | some i =>
        have hstarts := List.find?_some hfind
        obtain ⟨tail, htail⟩ := List.isPrefixOf_iff_prefix.mp hstarts
        have hpos := List.length_pos_of_ne_nil (hne i)
        have hlength := congrArg List.length htail
        rw [List.length_append] at hlength
        rw [← htail] at hfind ⊢
        exact hhole i tail hfind (ih _ (by omega) tail rfl)

end Read

/-! ### Occurrences -/

section Occurrences

variable {old : List α}

theorem occurrences_append_le : ∀ first second : List α,
    occurrences old first + occurrences old second ≤ occurrences old (first ++ second) := by
  intro first second
  induction first with
  | nil => simp [occurrences]
  | cons c rest ih =>
    rw [List.cons_append, occurrences, occurrences]
    by_cases hstarts : old.isPrefixOf (c :: rest)
    · have hlonger : old.isPrefixOf (c :: (rest ++ second)) = true := by
        rw [List.isPrefixOf_iff_prefix] at hstarts ⊢
        exact hstarts.trans (List.prefix_append (c :: rest) second)
      rw [if_pos hstarts, if_pos hlonger]
      omega
    · rw [if_neg hstarts]
      omega

instance (first second : List α) : Decidable (Meets first second) := by
  unfold Meets
  infer_instance

/-- No place of the second overlaps a place of the first, but for the first itself. -/
structure Apart (first second : List α) : Prop where
  inside : ∀ k < first.length, 0 < k → ¬ Meets (first.drop k) second
  front : Meets first second → first = second

instance (first second : List α) : Decidable (Apart first second) :=
  decidable_of_iff ((∀ k < first.length, 0 < k → ¬ Meets (first.drop k) second) ∧
      (Meets first second → first = second))
    ⟨fun h => ⟨h.1, h.2⟩, fun h => ⟨h.inside, h.front⟩⟩

theorem occurrences_skip : ∀ {piece : List α},
    (∀ k < piece.length, ¬ Meets (piece.drop k) old) →
      occurrences old (piece ++ rest) = occurrences old rest := by
  intro piece
  induction piece with
  | nil => intro _; rfl
  | cons c tail ih =>
    intro h
    have htail := ih fun k hk => h (k + 1) (Nat.succ_lt_succ hk)
    have hstarts : old.isPrefixOf (c :: (tail ++ rest)) = false := by
      rw [Bool.eq_false_iff, ne_eq, List.isPrefixOf_iff_prefix]
      exact fun hp => h 0 (Nat.zero_lt_succ _) (meets_of_starts hp)
    rw [List.cons_append, occurrences, hstarts, htail]
    simp

theorem occurrences_mark [DecidableEq (List α)] {mark : List α} (hne : mark ≠ [])
    (hapart : Apart mark old) (rest : List α) :
    occurrences old (mark ++ rest) = (if mark = old then 1 else 0) + occurrences old rest := by
  obtain ⟨c, tail, rfl⟩ := List.exists_cons_of_ne_nil hne
  have htail : occurrences old (tail ++ rest) = occurrences old rest :=
    occurrences_skip fun k hk => hapart.inside (k + 1) (Nat.succ_lt_succ hk) (Nat.succ_pos k)
  have hfront : old.isPrefixOf (c :: (tail ++ rest)) = true ↔ c :: tail = old := by
    rw [List.isPrefixOf_iff_prefix]
    constructor
    · exact fun hp => hapart.front (meets_of_starts hp)
    · rintro rfl
      exact List.prefix_append (c :: tail) rest
  rw [List.cons_append, occurrences, htail]
  by_cases heq : c :: tail = old
  · rw [if_pos (hfront.mpr heq), if_pos heq]
  · rw [if_neg (mt hfront.mp heq), if_neg heq]

theorem isPrefixOf_before {mark : List α} (hapart : Apart old mark) {before : List α}
    (hne : before ≠ []) (rest : List α) :
    old.isPrefixOf (before ++ (mark ++ rest)) = old.isPrefixOf before := by
  rw [Bool.eq_iff_iff, List.isPrefixOf_iff_prefix, List.isPrefixOf_iff_prefix]
  constructor
  · intro hp
    by_cases hle : old.length ≤ before.length
    · exact List.prefix_of_prefix_length_le hp (List.prefix_append _ _) hle
    · obtain ⟨tail, rfl⟩ : before <+: old :=
        List.prefix_of_prefix_length_le (List.prefix_append _ _) hp (by omega)
      have hpos := List.length_pos_of_ne_nil hne
      rw [List.length_append] at hle
      have hmeets : Meets mark tail :=
        meets_of_starts ((List.prefix_append_right_inj before).mp hp)
      refine absurd ?_ (hapart.inside before.length (by rw [List.length_append]; omega) hpos)
      rw [List.drop_left]
      exact hmeets.symm
  · exact fun hp => hp.trans (List.prefix_append _ _)

theorem occurrences_before {mark : List α} (hapart : Apart old mark) (rest : List α) :
    ∀ before : List α, occurrences old (before ++ (mark ++ rest))
      = occurrences old before + occurrences old (mark ++ rest) := by
  intro before
  induction before with
  | nil => simp [occurrences]
  | cons c tail ih =>
    have hstarts := isPrefixOf_before hapart (List.cons_ne_nil c tail) rest
    rw [List.cons_append] at hstarts ⊢
    rw [occurrences, occurrences, hstarts, ih, Nat.add_assoc]

end Occurrences

/-! ### Replacing one mark -/

section ReplaceAll

variable {old new : List α}

theorem find_unit (text : List α) : [()].find? (fun _ => old.isPrefixOf text)
    = if old.isPrefixOf text then some () else none := by
  by_cases h : old.isPrefixOf text <;> simp [h]

theorem replaceAll_nil : replaceAll old new [] = [] := rfl

theorem replaceAll_mark (hne : old ≠ []) (rest : List α) :
    replaceAll old new (old ++ rest) = new ++ replaceAll old new rest := by
  have hfind : [()].find? (fun _ => old.isPrefixOf (old ++ rest)) = some () := by
    rw [find_unit, if_pos (List.isPrefixOf_iff_prefix.mpr (List.prefix_append old rest))]
  unfold replaceAll
  rw [@pieces_of_some α Unit _ (fun _ => old) [()] () rest hne hfind]
  rfl

theorem replaceAll_char {c : α} {rest : List α} (h : old.isPrefixOf (c :: rest) = false) :
    replaceAll old new (c :: rest) = c :: replaceAll old new rest := by
  have hfind : [()].find? (fun _ => old.isPrefixOf (c :: rest)) = none := by
    rw [find_unit, h]
    rfl
  unfold replaceAll
  rw [@pieces_of_none α Unit _ (fun _ => old) [()] c rest hfind]
  rfl

theorem not_prefix_of_occurrences {c : α} (h : occurrences old (c :: rest) = 0) :
    old.isPrefixOf (c :: rest) = false ∧ occurrences old rest = 0 := by
  rw [occurrences, Nat.add_eq_zero_iff] at h
  refine ⟨?_, h.2⟩
  rw [Bool.eq_false_iff]
  intro hstarts
  rw [if_pos hstarts] at h
  exact absurd h.1 Nat.one_ne_zero

theorem replaceAll_of_none : ∀ {text : List α}, occurrences old text = 0 →
    replaceAll old new text = text := by
  intro text
  induction text with
  | nil => intro _; rfl
  | cons c rest ih =>
    intro h
    obtain ⟨hstarts, hrest⟩ := not_prefix_of_occurrences h
    rw [replaceAll_char hstarts, ih hrest]

theorem replaceAll_before (hne : old ≠ []) (hapart : Apart old old) (rest : List α) :
    ∀ {before : List α}, occurrences old before = 0 →
      replaceAll old new (before ++ (old ++ rest)) = before ++ (new ++ replaceAll old new rest) := by
  intro before
  induction before with
  | nil => intro _; exact replaceAll_mark hne rest
  | cons c tail ih =>
    intro h
    obtain ⟨hstarts, htail⟩ := not_prefix_of_occurrences h
    rw [← isPrefixOf_before hapart (List.cons_ne_nil c tail) rest, List.cons_append] at hstarts
    rw [List.cons_append, replaceAll_char hstarts, ih htail, List.cons_append]

theorem not_prefix_of_find (h : [()].find? (fun _ => old.isPrefixOf text) = none) :
    old.isPrefixOf text = false := by
  rw [find_unit] at h
  by_contra hstarts
  rw [Bool.not_eq_false] at hstarts
  rw [if_pos hstarts] at h
  cases h

theorem length_replaceAll (hne : old ≠ []) (text : List α) :
    (replaceAll old new text).length +
        holes () (pieces (fun _ : Unit => old) [()] 0 text) * old.length =
      text.length + holes () (pieces (fun _ : Unit => old) [()] 0 text) * new.length := by
  induction text using @read_induction _ Unit _ (fun _ => old) [()] with
  | hne i => exact hne
  | hnil => simp [replaceAll_nil, pieces, holes]
  | hhole i rest hfind ih =>
    rw [replaceAll_mark hne, @pieces_of_some _ Unit _ (fun _ => old) [()] () rest hne hfind,
      holes_self, List.length_append, List.length_append, Nat.add_mul, Nat.add_mul]
    omega
  | hchar c rest hfind ih =>
    rw [replaceAll_char (not_prefix_of_find hfind), pieces_of_none hfind, holes_char, List.length_cons,
      List.length_cons]
    omega

theorem replaceAll_eq_self_iff (hne : old ≠ []) (text : List α) :
    replaceAll old new text = text ↔ new = old ∨ occurrences old text = 0 := by
  constructor
  · intro h
    by_cases hnew : new = old
    · exact .inl hnew
    refine .inr ?_
    revert h
    induction text using @read_induction _ Unit _ (fun _ => old) [()] with
    | hne i => exact hne
    | hnil => exact fun _ => rfl
    | hhole i rest hfind ih =>
      intro h
      have hlength := @length_replaceAll _ _ old new hne (old ++ rest)
      rw [h, @pieces_of_some _ Unit _ (fun _ => old) [()] () rest hne hfind, holes_self] at hlength
      have hsame : old.length = new.length :=
        Nat.eq_of_mul_eq_mul_left (Nat.add_pos_left Nat.one_pos _) (Nat.add_left_cancel hlength)
      rw [replaceAll_mark hne] at h
      exact absurd (List.append_inj h hsame.symm).1 hnew
    | hchar c rest hfind ih =>
      intro h
      have hstarts := not_prefix_of_find hfind
      rw [replaceAll_char hstarts] at h
      rw [occurrences, hstarts, ih (List.cons.inj h).2]
      rfl
  · rintro (rfl | hnone)
    · induction text using @read_induction _ Unit _ (fun _ => new) [()] with
      | hne i => exact hne
      | hnil => rfl
      | hhole i rest hfind ih => rw [replaceAll_mark hne, ih]
      | hchar c rest hfind ih => rw [replaceAll_char (not_prefix_of_find hfind), ih]
    · exact replaceAll_of_none hnone

end ReplaceAll

/-! ### Replacing in parts -/

section Parts

variable {old new : List α}

theorem skip_le_of_uncut {behind : List α} : ∀ {text : List α} {skip : Nat},
    uncut old behind skip text = true → skip ≤ text.length := by
  intro text
  induction text with
  | nil => exact fun h => (beq_iff_eq.mp h).le
  | cons c rest ih =>
    intro skip h
    cases skip with
    | zero => exact Nat.zero_le _
    | succ skip => exact Nat.succ_le_succ (ih h)

theorem pieces_append_of_uncut {behind : List α} : ∀ {text : List α} {skip : Nat},
    uncut old behind skip text = true →
      pieces (fun _ : Unit => old) [()] skip (text ++ behind) =
        pieces (fun _ => old) [()] skip text ++ pieces (fun _ => old) [()] 0 behind := by
  intro text
  induction text with
  | nil =>
    intro skip h
    rw [beq_iff_eq.mp h]
    rfl
  | cons c rest ih =>
    intro skip h
    cases skip with
    | succ skip => exact ih h
    | zero =>
      unfold uncut at h
      rw [List.cons_append, pieces, pieces, find_unit, find_unit]
      by_cases hstarts : old.isPrefixOf (c :: (rest ++ behind)) = true
      · rw [if_pos hstarts] at h
        have hlength := skip_le_of_uncut h
        have hown : old.isPrefixOf (c :: rest) = true := by
          rw [List.isPrefixOf_iff_prefix] at hstarts ⊢
          exact List.prefix_of_prefix_length_le hstarts (List.prefix_append (c :: rest) behind)
            (by rw [List.length_cons]; omega)
        rw [if_pos hstarts, if_pos hown, ih h]
        rfl
      · have hown : ¬old.isPrefixOf (c :: rest) = true := fun hown => hstarts <| by
          rw [List.isPrefixOf_iff_prefix] at hown ⊢
          exact hown.trans (List.prefix_append (c :: rest) behind)
        rw [if_neg hstarts] at h
        rw [if_neg hstarts, if_neg hown, ih h]
        rfl

theorem replaceAll_flatten : ∀ {parts : List (List α)}, noneCut old parts = true →
    replaceAll old new parts.flatten = (parts.map (replaceAll old new)).flatten := by
  intro parts
  induction parts with
  | nil => exact fun _ => rfl
  | cons part rest ih =>
    intro h
    obtain ⟨hpart, hrest⟩ := Bool.and_eq_true_iff.mp h
    rw [List.flatten_cons, List.map_cons, List.flatten_cons, ← ih hrest]
    unfold replaceAll fill
    rw [pieces_append_of_uncut hpart, List.flatMap_append]

theorem noneCut_of_length_le (h : old.length ≤ 1) (parts : List (List α)) :
    noneCut old parts = true := by
  have huncut : ∀ behind text : List α, uncut old behind 0 text = true := by
    intro behind text
    induction text with
    | nil => rfl
    | cons c rest ih =>
      unfold uncut
      rw [Nat.sub_eq_zero_of_le h, ih]
      exact ite_self _
  induction parts with
  | nil => rfl
  | cons part rest ih =>
    unfold noneCut
    rw [huncut, ih]
    rfl

theorem replaceAll_singleton (h : 1 < old.length) (c : α) : replaceAll old new [c] = [c] := by
  apply replaceAll_of_none
  have hstarts : ¬old.isPrefixOf [c] = true := fun hstarts =>
    absurd (List.isPrefixOf_iff_prefix.mp hstarts).length_le (Nat.not_le.mpr h)
  rw [occurrences, if_neg hstarts]
  rfl

end Parts

/-! ### Replacing one kind after another -/

/-- Marks that can be told apart, all of them named by `all`. -/
structure Marks (mark : ι → List α) (all : List ι) : Prop where
  ne_nil : ∀ i, mark i ≠ []
  apart : ∀ i j, Apart (mark i) (mark j)
  injective : ∀ i j, mark i = mark j → i = j
  mem : ∀ i, i ∈ all
  nodup : all.Nodup

variable (mark value : ι → List α)

def replaceEach (order : List ι) (text : List α) : List α :=
  order.foldl (fun result i => replaceAll (mark i) (value i) result) text

theorem replaceEach_snoc (before : List ι) (i : ι) (text : List α) :
    replaceEach mark value (before ++ [i]) text
      = replaceAll (mark i) (value i) (replaceEach mark value before text) := by
  rw [replaceEach, List.foldl_append]
  rfl

/-- A kind stands in the text, when its turn comes, as often as it did in the beginning. -/
def Steady (order : List ι) (text : List α) : Prop :=
  ∀ before i after, order = before ++ i :: after →
    occurrences (mark i) (replaceEach mark value before text) = occurrences (mark i) text

variable [DecidableEq ι]

/-- What stands for a mark, when some kinds are replaced. -/
def shown (done : List ι) (i : ι) : List α := if i ∈ done then value i else mark i

/-- The text with some kinds replaced at once. -/
def filled (all done : List ι) (text : List α) : List α :=
  fill (shown mark value done) (pieces mark all 0 text)

/-- The kinds that stay as they are when the others are replaced. -/
def Undisturbed (all : List ι) (text : List α) : Prop :=
  ∀ i, occurrences (mark i) (filled mark value all (all.erase i) text) = occurrences (mark i) text

section Marks

variable {mark value} {all : List ι}

theorem filled_none (hmarks : Marks mark all) (text : List α) :
    filled mark value all [] text = text := by
  induction text using @read_induction _ _ _ mark all with
  | hne i => exact hmarks.ne_nil i
  | hnil => rfl
  | hhole i rest hfind ih =>
    rw [filled, pieces_of_some (hmarks.ne_nil i) hfind, fill_hole]
    exact congrArg (mark i ++ ·) ih
  | hchar c rest hfind ih =>
    rw [filled, pieces_of_none hfind, fill_char]
    exact congrArg (c :: ·) ih

theorem occurrences_eq_holes (hmarks : Marks mark all) (i : ι) (text : List α) :
    occurrences (mark i) text = holes i (pieces mark all 0 text) := by
  induction text using @read_induction _ _ _ mark all with
  | hne i => exact hmarks.ne_nil i
  | hnil => rfl
  | hhole j rest hfind ih =>
    rw [pieces_of_some (hmarks.ne_nil j) hfind,
      occurrences_mark (hmarks.ne_nil j) (hmarks.apart j i), ih]
    by_cases hji : j = i
    · rw [hji, if_pos rfl, holes_self]
    · rw [if_neg fun h => hji (hmarks.injective j i h), holes_other hji, Nat.zero_add]
  | hchar c rest hfind ih =>
    have hstarts : (mark i).isPrefixOf (c :: rest) = false := by
      rw [Bool.eq_false_iff]
      exact List.find?_eq_none.mp hfind i (hmarks.mem i)
    rw [pieces_of_none hfind, occurrences, hstarts, ih, holes_char]
    simp

theorem holes_le (i : ι) {done : List ι} (hi : i ∉ done) (hne : mark i ≠ []) :
    ∀ ps : List (Piece α ι), holes i ps ≤ occurrences (mark i) (fill (shown mark value done) ps) := by
  intro ps
  induction ps with
  | nil => exact Nat.zero_le _
  | cons piece ps ih =>
    cases piece with
    | char c =>
      rw [holes_char, fill_char, occurrences]
      omega
    | hole j =>
      rw [fill_hole]
      have hsum := @occurrences_append_le α _ (mark i) (shown mark value done j)
        (fill (shown mark value done) ps)
      by_cases hji : j = i
      · subst hji
        have hself : 1 ≤ occurrences (mark j) (shown mark value done j) := by
          rw [shown, if_neg hi]
          obtain ⟨c, tail, hmark⟩ := List.exists_cons_of_ne_nil hne
          rw [hmark, occurrences, if_pos (List.isPrefixOf_iff_prefix.mpr (List.prefix_refl _))]
          omega
        rw [holes_self]
        omega
      · rw [holes_other hji]
        omega

theorem occurrences_mono (hmarks : Marks mark all) {i : ι} {done more : List ι}
    (hsub : ∀ j ∈ done, j ∈ more) : ∀ (ps : List (Piece α ι)) (before : List α),
    occurrences (mark i) (before ++ fill (shown mark value done) ps)
      ≤ occurrences (mark i) (before ++ fill (shown mark value more) ps) ∨ i ∈ more := by
  intro ps
  by_cases hi : i ∈ more
  · exact fun _ => .inr hi
  · induction ps with
    | nil => exact fun _ => .inl (le_refl _)
    | cons piece ps ih =>
      intro before
      refine .inl ?_
      have hsame : ∀ middle : List α,
          occurrences (mark i) (before ++ (middle ++ fill (shown mark value done) ps))
            ≤ occurrences (mark i) (before ++ (middle ++ fill (shown mark value more) ps)) := by
        intro middle
        rw [← List.append_assoc, ← List.append_assoc]
        exact (ih (before ++ middle)).resolve_right hi
      cases piece with
      | char c => exact hsame [c]
      | hole j =>
        rw [fill_hole, fill_hole]
        by_cases hdone : j ∈ done
        · rw [shown, shown, if_pos hdone, if_pos (hsub j hdone)]
          exact hsame (value j)
        · by_cases hmore : j ∈ more
          · have hji : mark j ≠ mark i := fun h => hi (hmarks.injective j i h ▸ hmore)
            have hrest := (ih []).resolve_right hi
            rw [List.nil_append, List.nil_append] at hrest
            have hfirst := @occurrences_append_le α _ (mark i) before
              (value j ++ fill (shown mark value more) ps)
            have hsecond := @occurrences_append_le α _ (mark i) (value j)
              (fill (shown mark value more) ps)
            rw [shown, shown, if_neg hdone, if_pos hmore,
              occurrences_before (hmarks.apart i j),
              occurrences_mark (hmarks.ne_nil j) (hmarks.apart j i), if_neg hji]
            omega
          · rw [shown, shown, if_neg hdone, if_neg hmore]
            exact hsame (mark j)

/-- A kind that stands at its places only is replaced there. -/
theorem replaceAll_fill (hmarks : Marks mark all) {i : ι} {done : List ι} (hi : i ∉ done) :
    ∀ (ps : List (Piece α ι)) (before : List α),
      occurrences (mark i) (before ++ fill (shown mark value done) ps) = holes i ps →
        replaceAll (mark i) (value i) (before ++ fill (shown mark value done) ps)
          = before ++ fill (shown mark value (done ++ [i])) ps := by
  intro ps
  induction ps with
  | nil =>
    intro before h
    rw [fill, List.flatMap_nil, List.append_nil] at h
    rw [fill, List.flatMap_nil, List.append_nil, fill, List.flatMap_nil, List.append_nil]
    exact replaceAll_of_none h
  | cons piece ps ih =>
    intro before h
    cases piece with
    | char c =>
      rw [fill_char, holes_char, List.append_cons] at h
      have hnext := ih _ h
      rw [← List.append_cons, ← List.append_cons] at hnext
      rw [fill_char, fill_char, hnext]
    | hole j =>
      rw [fill_hole] at h
      rw [fill_hole, fill_hole]
      by_cases hji : j = i
      · subst hji
        have hmark : shown mark value done j = mark j := if_neg hi
        have hvalue : shown mark value (done ++ [j]) j = value j := if_pos (by simp)
        rw [hmark, holes_self, occurrences_before (hmarks.apart j j),
          occurrences_mark (hmarks.ne_nil j) (hmarks.apart j j), if_pos rfl] at h
        have hle := @holes_le α ι _ mark value _ j done hi (hmarks.ne_nil j) ps
        have hrest := ih [] (by rw [List.nil_append]; omega)
        rw [List.nil_append, List.nil_append] at hrest
        rw [hmark, hvalue, replaceAll_before (hmarks.ne_nil j) (hmarks.apart j j) _ (by omega),
          hrest]
      · have hshown : shown mark value (done ++ [i]) j = shown mark value done j := by
          simp [shown, hji]
        rw [holes_other hji, ← List.append_assoc] at h
        rw [hshown, ← List.append_assoc, ih _ h, List.append_assoc]

theorem replaceAll_filled (hmarks : Marks mark all) {i : ι} {done : List ι} (hi : i ∉ done)
    (h : occurrences (mark i) (filled mark value all done text) = occurrences (mark i) text) :
    replaceAll (mark i) (value i) (filled mark value all done text)
      = filled mark value all (done ++ [i]) text := by
  rw [occurrences_eq_holes hmarks i text] at h
  exact replaceAll_fill hmarks hi (pieces mark all 0 text) [] h

theorem replaceEach_eq_filled (hmarks : Marks mark all) {order : List ι} (hnodup : order.Nodup)
    (hsteady : Steady mark value order text) :
    ∀ before after, order = before ++ after →
      replaceEach mark value before text = filled mark value all before text := by
  intro before
  induction before using List.reverseRecOn with
  | nil => exact fun _ _ => (filled_none hmarks text).symm
  | append_singleton before i ih =>
    intro after horder
    rw [List.append_assoc, List.singleton_append] at horder
    have hbefore := ih (i :: after) horder
    have hcount := hsteady before i after horder
    have hi : i ∉ before := by
      rw [horder, List.nodup_append] at hnodup
      exact fun hmem => hnodup.2.2 i hmem i List.mem_cons_self rfl
    rw [hbefore] at hcount
    rw [replaceEach_snoc, hbefore, replaceAll_filled hmarks hi hcount]

theorem Undisturbed.count (hmarks : Marks mark all) {text : List α}
    (h : Undisturbed mark value all text) {done : List ι} {i : ι} (hi : i ∉ done) :
    occurrences (mark i) (filled mark value all done text) = occurrences (mark i) text := by
  have hsub : ∀ j ∈ done, j ∈ all.erase i := by
    intro j hj
    rw [hmarks.nodup.mem_erase_iff]
    exact ⟨fun heq => hi (heq ▸ hj), hmarks.mem j⟩
  have hself : i ∉ all.erase i := by
    rw [hmarks.nodup.mem_erase_iff]
    exact fun hmem => hmem.1 rfl
  have hupper := (@occurrences_mono α ι _ mark value _ all hmarks i done _ hsub
    (pieces mark all 0 text) []).resolve_right hself
  have hlower := @holes_le α ι _ mark value _ i done hi (hmarks.ne_nil i) (pieces mark all 0 text)
  rw [← occurrences_eq_holes hmarks] at hlower
  exact le_antisymm (hupper.trans (h i).le) hlower

theorem Undisturbed.replaceEach_eq (hmarks : Marks mark all) (h : Undisturbed mark value all text) :
    ∀ done : List ι, done.Nodup →
      replaceEach mark value done text = filled mark value all done text := by
  intro done
  induction done using List.reverseRecOn with
  | nil => exact fun _ => (filled_none hmarks text).symm
  | append_singleton done i ih =>
    intro hnodup
    rw [List.nodup_append] at hnodup
    have hi : i ∉ done := fun hmem => hnodup.2.2 i hmem i List.mem_cons_self rfl
    rw [replaceEach_snoc, ih hnodup.1, replaceAll_filled hmarks hi (h.count hmarks hi)]

/-- **In every order each kind is replaced at its own places exactly where no kind is disturbed by
the others.** -/
theorem steady_iff (hmarks : Marks mark all) (text : List α) :
    (∀ order : List ι, order.Perm all → Steady mark value order text) ↔
      Undisturbed mark value all text := by
  constructor
  · intro h i
    have hperm : (all.erase i ++ [i]).Perm all :=
      (List.perm_append_singleton i _).trans (List.perm_cons_erase (hmarks.mem i)).symm
    have hsteady := h _ hperm
    have hnodup := hperm.nodup_iff.mpr hmarks.nodup
    have hothers := replaceEach_eq_filled hmarks hnodup hsteady (all.erase i) [i] rfl
    rw [← hothers]
    exact hsteady (all.erase i) i [] rfl
  · intro h order hperm before i after horder
    have hnodup := hperm.nodup_iff.mpr hmarks.nodup
    rw [horder, List.nodup_append] at hnodup
    have hi : i ∉ before := fun hmem => hnodup.2.2 i hmem i List.mem_cons_self rfl
    rw [h.replaceEach_eq hmarks before hnodup.1]
    exact h.count hmarks hi

theorem filled_congr {done more : List ι} (h : ∀ i, i ∈ done ↔ i ∈ more) (text : List α) :
    filled mark value all done text = filled mark value all more text := by
  have hshown : shown mark value done = shown mark value more := by
    funext i
    simp only [shown, h]
  rw [filled, filled, hshown]

end Marks

end Replace
