/-
What the text replacements of a channel leave alone, and what they make of an answer in parts.

`active` is passed down from the key of a text field to everything below, while the text of a
document is in the strings whose nearest key is such a key: the `type` of a part of `content` is
replaced with its `text`.  A number goes through `float64`, and of two fields of one name the first
is lost.  `rewrites_only_text_iff` says that a document keeps all but its text where none of this
shows.

A rule replaces what it finds in one event.  `same_text_in_events` is about the streams in which no
text that a rule replaces lies across two events, when its turn comes.
-/
import JulongApi.TextReplacement

namespace JulongApi.TextReplacement

open JsonTree

/-! ### Only text -/

section OnlyText

variable {F : Type}

mutual

/-- What a document must be like to keep all but its text. -/
def Kept (float : Float64 F) (config : TextReplacementConfig) (response active isText : Bool) :
    Json F → Prop
  | .scalar (.number value) => float.nearest value = value
  | .scalar (.string value) =>
    active = true → isText = false → config.apply value response = value
  | .scalar .null | .scalar (.bool _) => True
  | .array items => KeptItems float config response active isText items
  | .object fields =>
    fields.Pairwise (fun a b => a.1 ≠ b.1) ∧ KeptFields float config response active fields

def KeptItems (float : Float64 F) (config : TextReplacementConfig)
    (response active isText : Bool) : List (Json F) → Prop
  | [] => True
  | item :: rest =>
    Kept float config response active isText item ∧
      KeptItems float config response active isText rest

def KeptFields (float : Float64 F) (config : TextReplacementConfig) (response active : Bool) :
    List (String × Json F) → Prop
  | [] => True
  | (key, value) :: rest =>
    Kept float config response (active || keyAllowsText key) (keyAllowsText key) value ∧
      KeptFields float config response active rest

end

variable {float : Float64 F} {config : TextReplacementConfig} {response : Bool}

theorem names_decodeFields (nearest : F → F) (fields : List (String × Json F)) :
    (decodeFields nearest fields).map Prod.fst = fields.map Prod.fst := by
  induction fields with
  | nil => rfl
  | cons field rest ih => exact congrArg (field.1 :: ·) ih

theorem length_rewriteFields (active : Bool) (fields : List (String × Json F)) :
    (rewriteFields config response active fields).length = fields.length := by
  induction fields with
  | nil => rfl
  | cons field rest ih => exact congrArg Nat.succ ih

theorem length_skeletonFields (fields : List (String × Json F)) :
    (skeletonFields fields).length = fields.length := by
  induction fields with
  | nil => rfl
  | cons field rest ih => exact congrArg Nat.succ ih

theorem pairwise_names {fields others : List (String × Json F)}
    (h : fields.map Prod.fst = others.map Prod.fst) :
    fields.Pairwise (fun a b => a.1 ≠ b.1) ↔ others.Pairwise (fun a b => a.1 ≠ b.1) := by
  rw [← List.pairwise_map (f := Prod.fst) (R := (· ≠ ·)), h, List.pairwise_map]

theorem pairwise_of_skeleton {active : Bool} {fields decoded : List (String × Json F)}
    (hnames : decoded.map Prod.fst = fields.map Prod.fst)
    (h : skeletonFields (rewriteFields config response active
      (decoded.pwFilter fun a b => a.1 ≠ b.1)) = skeletonFields fields) :
    fields.Pairwise (fun a b => a.1 ≠ b.1) := by
  have hlength := congrArg List.length h
  have hsame : decoded.length = fields.length := by simpa using congrArg List.length hnames
  rw [length_skeletonFields, length_rewriteFields, length_skeletonFields, ← hsame] at hlength
  rw [← pairwise_names hnames, ← List.pwFilter_eq_self]
  exact (List.pwFilter_sublist _).eq_of_length hlength

mutual

theorem skeleton_rewrite_iff (active isText : Bool) : ∀ value : Json F,
    skeleton isText (rewriteTextValuesInPlace config response active
      (decode float.nearest value)) = skeleton isText value ↔
        Kept float config response active isText value
  | .scalar .null | .scalar (.bool _) => iff_of_true rfl trivial
  | .scalar (.number value) => by
      show Json.scalar (.number (float.nearest value)) = .scalar (.number value) ↔
        float.nearest value = value
      rw [Json.scalar.injEq, Scalar.number.injEq]
  | .scalar (.string value) => by
      show Json.scalar (.string (if isText then "" else
        if active then config.apply value response else value)) =
          .scalar (.string (if isText then "" else value)) ↔
            (active = true → isText = false → config.apply value response = value)
      rw [Json.scalar.injEq, Scalar.string.injEq]
      cases isText <;> cases active <;> simp
  | .array items => by
      show Json.array _ = .array _ ↔ KeptItems float config response active isText items
      rw [Json.array.injEq]
      exact skeletonItems_rewrite_iff active isText items
  | .object fields => by
      have hnames := names_decodeFields float.nearest fields
      have hfields := skeletonFields_rewrite_iff active fields
      show Json.object _ = .object _ ↔ fields.Pairwise (fun a b => a.1 ≠ b.1) ∧
        KeptFields float config response active fields
      rw [Json.object.injEq, ← hfields]
      constructor
      · intro h
        have hpairwise := pairwise_of_skeleton hnames h
        rw [← pairwise_names hnames, ← List.pwFilter_eq_self] at hpairwise
        rw [hpairwise] at h
        exact ⟨pairwise_of_skeleton hnames (by rw [hpairwise]; exact h), h⟩
      · rintro ⟨hpairwise, h⟩
        rw [← pairwise_names hnames, ← List.pwFilter_eq_self] at hpairwise
        rw [hpairwise]
        exact h

theorem skeletonItems_rewrite_iff (active isText : Bool) : ∀ items : List (Json F),
    skeletonItems isText (rewriteItems config response active
      (decodeItems float.nearest items)) = skeletonItems isText items ↔
        KeptItems float config response active isText items
  | [] => iff_of_true rfl trivial
  | item :: rest => by
      show (_ :: _ : List (Json F)) = _ :: _ ↔ _ ∧ _
      rw [List.cons.injEq]
      exact and_congr (skeleton_rewrite_iff active isText item)
        (skeletonItems_rewrite_iff active isText rest)

theorem skeletonFields_rewrite_iff (active : Bool) : ∀ fields : List (String × Json F),
    skeletonFields (rewriteFields config response active
      (decodeFields float.nearest fields)) = skeletonFields fields ↔
        KeptFields float config response active fields
  | [] => iff_of_true rfl trivial
  | (key, value) :: rest => by
      show (_ :: _ : List (String × Json F)) = _ :: _ ↔ _ ∧ _
      rw [List.cons.injEq, Prod.mk.injEq]
      exact and_congr ((and_iff_right rfl).trans
        (skeleton_rewrite_iff (active || keyAllowsText key) (keyAllowsText key) value))
        (skeletonFields_rewrite_iff active rest)

end

/-- Only the text of a document is changed exactly where nothing is, where the document is not
decoded, and where what is decoded and replaced besides its text stays as it is. -/
theorem rewrites_only_text_iff (float : Float64 F) (config : TextReplacementConfig)
    (response : Bool) (data : Json F) :
    skeleton false (applyTextReplacementsJSON float data config response) = skeleton false data ↔
      config.empty = true ∨ unmarshal float data = none ∨
        Kept float config response false false data := by
  unfold applyTextReplacementsJSON
  by_cases hempty : config.empty = true
  · rw [if_pos hempty]
    exact iff_of_true rfl (.inl hempty)
  · rw [if_neg hempty]
    unfold unmarshal
    by_cases hdata : depth data ≤ maxNestingDepth ∧ data.allNumbers float.inRange
    · rw [if_pos hdata]
      dsimp only
      rw [skeleton_rewrite_iff]
      exact ⟨fun h => .inr (.inr h), fun h => (h.resolve_left hempty).resolve_left (by simp)⟩
    · rw [if_neg hdata]
      exact iff_of_true rfl (.inr (.inl rfl))

/-- The `type` of a part of a message is its protocol, and is replaced with its text. -/
theorem type_replaced : ¬ ∀ (config : TextReplacementConfig) (response : Bool) (data : Json Nat),
    skeleton false (applyTextReplacementsJSON ⟨fun _ => true, id⟩ data config response) =
      skeleton false data := by
  intro hall
  let config : TextReplacementConfig := ⟨[⟨"text", "note"⟩], []⟩
  let part : Json Nat :=
    .object [("type", .scalar (.string "text")), ("text", .scalar (.string "hello"))]
  have hkept := (@skeleton_rewrite_iff Nat ⟨fun _ => true, id⟩ config false false false
    (.object [("content", .array [part])])).mp
      (hall config false (.object [("content", .array [part])]))
  have htype : config.apply "text" false = "text" :=
    hkept.2.1.1.2.1 (by decide +kernel) (by decide +kernel)
  exact absurd htype (by decide +kernel)

end OnlyText

/-! ### An answer in parts -/

section Stream

variable {F : Type}

/-- Each rule, in its turn, finds nothing that lies across two parts. -/
def Uncut : List TextReplacementRule → List String → Prop
  | [], _ => True
  | rule :: rest, deltas =>
    (rule.fromText ≠ "" → Replace.noneCut rule.fromText.toList (deltas.map String.toList) = true) ∧
      Uncut rest (deltas.map (replace · rule))

theorem delivered_eq {part : String} (hpart : part = "delta" ∨ part = "message")
    (float : Float64 F) (config : TextReplacementConfig) (text : String) :
    delivered float config part text = config.apply text true := by
  have hkey : keyAllowsText "choices" = false ∧ keyAllowsText part = false ∧
      keyAllowsText "content" = true := by
    rcases hpart with rfl | rfl <;> decide +kernel
  unfold delivered applyTextReplacementsJSON
  by_cases hempty : config.empty = true
  · have hrules : config.response = [] := by simpa using (Bool.and_eq_true_iff.mp hempty).2
    rw [if_pos hempty]
    simp [content, answer, TextReplacementConfig.apply, hrules]
  · rw [if_neg hempty]
    have hdepth : depth (answer part text : Json F) ≤ maxNestingDepth := by
      show 4 ≤ 10000
      decide
    rw [unmarshal, if_pos ⟨hdepth, rfl⟩]
    show (if ((false || keyAllowsText "choices") || keyAllowsText part) || keyAllowsText "content"
      then config.apply text true else text) = config.apply text true
    rw [hkey.1, hkey.2.1, hkey.2.2]
    rfl

theorem replace_join {rule : TextReplacementRule} {deltas : List String}
    (h : rule.fromText ≠ "" →
      Replace.noneCut rule.fromText.toList (deltas.map String.toList) = true) :
    replace (String.join deltas) rule = String.join (deltas.map (replace · rule)) := by
  apply String.toList_inj.mp
  rw [String.toList_join, List.flatMap_map]
  by_cases hfrom : rule.fromText = ""
  · simp only [replace, hfrom, ne_eq, not_true_eq_false, if_false, String.toList_join]
  · have hparts := @Replace.replaceAll_flatten _ _ _ rule.toText.toList _ (h hfrom)
    simp only [replace, ne_eq, hfrom, not_false_eq_true, if_true, String.toList_ofList,
      String.toList_join, List.flatMap_def]
    rw [hparts, List.map_map]
    rfl

theorem rules_join : ∀ {rules : List TextReplacementRule} {deltas : List String},
    Uncut rules deltas →
      rules.foldl replace (String.join deltas) =
        String.join (deltas.map fun delta => rules.foldl replace delta) := by
  intro rules
  induction rules with
  | nil => exact fun _ => by simp
  | cons rule rest ih =>
    intro deltas h
    rw [List.foldl_cons, replace_join h.1, ih h.2, List.map_map]
    rfl

/-- The text that a client gets in events is the one it gets at once. -/
def SameText (float : Float64 F) (config : TextReplacementConfig) (deltas : List String) : Prop :=
  String.join (deltas.map (delivered float config "delta")) =
      delivered float config "message" (String.join deltas) ∧
    delivered float config "message" (String.join deltas) = config.apply (String.join deltas) true

theorem sameText_iff {float : Float64 F} {config : TextReplacementConfig} {deltas : List String} :
    SameText float config deltas ↔
      config.response.foldl replace (String.join deltas) =
        String.join (deltas.map fun delta => config.response.foldl replace delta) := by
  unfold SameText
  rw [delivered_eq (.inr rfl), funext (delivered_eq (.inl rfl) float config)]
  exact ⟨fun h => h.1.symm, fun h => ⟨h.symm, rfl⟩⟩

theorem every_split_iff (rule : TextReplacementRule) (text : String) :
    (∀ deltas, String.join deltas = text →
      replace text rule = String.join (deltas.map fun delta => replace delta rule)) ↔
        rule.fromText.length ≤ 1 ∨ rule.toText = rule.fromText ∨
          Replace.occurrences rule.fromText.toList text.toList = 0 := by
  have hjoin : String.join (text.toList.map String.singleton) = text := by
    apply String.toList_inj.mp
    simp [String.toList_join, List.flatMap_map]
  rw [← String.length_toList]
  constructor
  · intro h
    refine or_iff_not_imp_left.mpr fun hlong => ?_
    rw [not_le] at hlong
    have hne : rule.fromText.toList ≠ [] := List.ne_nil_of_length_pos (by omega)
    have hfrom : rule.fromText ≠ "" := fun hempty => hne (by rw [hempty]; rfl)
    have hsame := h _ hjoin
    have hsingle : (fun c : Char => replace (String.singleton c) rule) = String.singleton := by
      funext c
      apply String.toList_inj.mp
      rw [replace, if_pos hfrom, String.toList_ofList, String.toList_singleton]
      exact Replace.replaceAll_singleton hlong c
    rw [List.map_map, Function.comp_def, hsingle, hjoin, replace, if_pos hfrom,
      ← String.toList_inj, String.toList_ofList, Replace.replaceAll_eq_self_iff hne,
      String.toList_inj] at hsame
    exact hsame
  · rintro h deltas rfl
    by_cases hfrom : rule.fromText = ""
    · have hskip : ∀ value, replace value rule = value := fun value =>
        if_neg (not_not.mpr hfrom)
      simp only [hskip, List.map_id']
    have hne : rule.fromText.toList ≠ [] := fun hnil => hfrom (String.toList_inj.mp hnil)
    rcases h with hshort | hkeeps
    · exact replace_join fun _ => Replace.noneCut_of_length_le hshort _
    -- what the whole does not have, or is replaced by itself, is left alone in every part
    have hpart : ∀ part ∈ deltas, replace part rule = part := by
      intro part hmem
      apply String.toList_inj.mp
      rw [replace, if_pos hfrom, String.toList_ofList, Replace.replaceAll_eq_self_iff hne,
        String.toList_inj]
      refine hkeeps.imp_right fun hnone => ?_
      obtain ⟨before, after, rfl⟩ := List.append_of_mem hmem
      rw [String.toList_join, List.flatMap_append, List.flatMap_cons] at hnone
      have hbehind := @Replace.occurrences_append_le _ _ rule.fromText.toList
        (before.flatMap String.toList) (part.toList ++ after.flatMap String.toList)
      have hafter := @Replace.occurrences_append_le _ _ rule.fromText.toList
        part.toList (after.flatMap String.toList)
      omega
    rw [List.map_congr_left hpart, List.map_id']
    apply String.toList_inj.mp
    rw [replace, if_pos hfrom, String.toList_ofList, Replace.replaceAll_eq_self_iff hne,
      String.toList_inj]
    exact hkeeps

/-- The text in events is that at once when no rule, in its turn, finds anything that lies across
two events; and with one rule it is so in every split just of the texts that the rule leaves alone,
unless it looks for a single character. -/
theorem same_text_in_events (float : Float64 F) (config : TextReplacementConfig) :
    (∀ deltas, Uncut config.response deltas → SameText float config deltas) ∧
      ∀ rule text, config.response = [rule] →
        ((∀ deltas, String.join deltas = text → SameText float config deltas) ↔
          rule.fromText.length ≤ 1 ∨ rule.toText = rule.fromText ∨
            Replace.occurrences rule.fromText.toList text.toList = 0) := by
  refine ⟨fun deltas h => sameText_iff.mpr (rules_join h), fun rule text hrule => ?_⟩
  rw [← every_split_iff rule text]
  refine forall₂_congr fun deltas htext => ?_
  rw [sameText_iff, hrule, htext]
  rfl

theorem same_text_in_events_sample :
    let config : TextReplacementConfig := ⟨[], [⟨"an", "the"⟩]⟩
    SameText (F := Nat) ⟨fun _ => true, id⟩ config ["an a", "b and a", "bc"] ∧
      ∀ deltas, String.join deltas = "bc" → SameText (F := Nat) ⟨fun _ => true, id⟩ config deltas :=
  ⟨(same_text_in_events ⟨fun _ => true, id⟩ ⟨[], [⟨"an", "the"⟩]⟩).1 ["an a", "b and a", "bc"]
      ⟨fun _ => by decide +kernel, trivial⟩,
    ((same_text_in_events ⟨fun _ => true, id⟩ ⟨[], [⟨"an", "the"⟩]⟩).2 ⟨"an", "the"⟩ "bc" rfl).mpr
      (.inr (.inr (by decide +kernel)))⟩

theorem cut_not_replaced : ¬ ∀ (config : TextReplacementConfig) (deltas : List String),
    String.join (deltas.map (delivered (F := Nat) ⟨fun _ => true, id⟩ config "delta")) =
      config.apply (String.join deltas) true := by
  intro hall
  exact absurd (hall ⟨[], [⟨"ab", "c"⟩]⟩ ["a", "b"]) (by decide +kernel)

end Stream

end JulongApi.TextReplacement
