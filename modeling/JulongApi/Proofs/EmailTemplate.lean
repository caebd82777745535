/-
A text of a campaign is filled at once exactly where no value spells a placeholder.

The loop replaces one placeholder after another, in any order, so a value that was put in is read
again; it is left as it is where it makes no place of its own.
-/
import JulongApi.EmailTemplate

namespace JulongApi.EmailTemplate

open Replace

variable (r : Rendering)

def mark (field : Field) : List Char := field.placeholder.toList

def shownValue (field : Field) : List Char := (r.value field).toList

theorem Field.mem_all (field : Field) : field ∈ Field.all := by
  cases field <;> decide

theorem marks_apart : ∀ first ∈ Field.all, ∀ second ∈ Field.all,
    Apart (mark first) (mark second) ∧ (mark first = mark second → first = second) := by
  decide +kernel

theorem fields_marks : Marks mark Field.all where
  ne_nil := fun field => by cases field <;> decide
  apart := fun first second => (marks_apart first first.mem_all second second.mem_all).1
  injective := fun first second => (marks_apart first first.mem_all second second.mem_all).2
  mem := Field.mem_all
  nodup := by decide

theorem toList_replaceAll (s old new : String) :
    (replaceAll s old new).toList = Replace.replaceAll old.toList new.toList s.toList :=
  String.toList_ofList

theorem toList_renderFields (order : List Field) : ∀ template : String,
    (renderFields r order template).toList
      = replaceEach mark (shownValue r) order template.toList := by
  induction order with
  | nil => exact fun _ => rfl
  | cons field rest ih =>
    intro template
    have hrest := ih (replaceAll template field.placeholder (r.value field))
    rw [toList_replaceAll] at hrest
    exact hrest

theorem toList_fillFields (fields : List Field) (template : String) :
    (fillFields r fields template).toList
      = filled mark (shownValue r) Field.all fields template.toList :=
  String.toList_ofList

theorem steady_iff_once (template : String) :
    (∀ order : List Field, order.Perm Field.all →
        Steady mark (shownValue r) order template.toList) ↔
      ∀ (order : {order : List Field // order.Perm Field.all}) before field after,
        order.1 = before ++ field :: after →
          placesOf field (renderFields r before template) = placesOf field template := by
  unfold Steady placesOf
  simp only [toList_renderFields, Subtype.forall]
  rfl

theorem undisturbed_iff_spellsNone (template : String) :
    Undisturbed mark (shownValue r) Field.all template.toList ↔ r.SpellsNone template := by
  unfold Undisturbed Rendering.SpellsNone placesOf
  simp only [toList_fillFields]
  rfl

/-- **A text is filled at once, in every order of the map, exactly where no value spells a
placeholder with the text around it.** -/
theorem simultaneous_iff (template : String) : r.Simultaneous template ↔ r.SpellsNone template := by
  rw [← undisturbed_iff_spellsNone, ← steady_iff fields_marks, steady_iff_once]
  constructor
  · exact fun h => h.once
  · intro honce
    refine ⟨honce, fun order => ?_⟩
    have hsteady := (steady_iff_once r template).mpr honce order.1 order.2
    have hnodup : order.1.Nodup := order.2.nodup_iff.mpr fields_marks.nodup
    have heach := replaceEach_eq_filled fields_marks hnodup hsteady order.1 []
      (List.append_nil _).symm
    rw [filled_congr fun field => order.2.mem_iff] at heach
    rw [← String.toList_inj, toList_fillFields, ← heach]
    exact toList_renderFields r order.1 template

def namedEmail : Rendering where
  env := { systemName := "", format := fun _ => "" }
  delivery := {
    username := "\x7b\x7bemail\x7d\x7d"
    displayName := ""
    email := "a@b.c"
    subscriptionTitle := ""
    subscriptionEndTime := 0 }
  now := 0
  escapeHTML := false

/-- The name is replaced by the address. -/
theorem username_expanded :
    ¬ ∀ (r : Rendering) (template : String), r.Simultaneous template := by
  intro hall
  have hresult := (hall namedEmail "\x7b\x7busername\x7d\x7d").atOnce
    ⟨Field.all, List.Perm.refl _⟩
  have hrendered : renderEmailCampaignTemplate namedEmail ⟨Field.all, List.Perm.refl _⟩
      "\x7b\x7busername\x7d\x7d" = "a@b.c" := by decide +kernel
  have hfilled : fillFields namedEmail Field.all "\x7b\x7busername\x7d\x7d"
      = "\x7b\x7bemail\x7d\x7d" := by decide +kernel
  rw [hrendered, hfilled] at hresult
  exact absurd hresult (by decide +kernel)

end JulongApi.EmailTemplate
