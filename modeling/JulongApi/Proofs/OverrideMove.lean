/-
What `move` leaves at its target.

A move writes the value at the target and then deletes the source in the document it has written.
The value is there afterwards unless the deletion takes it away, takes something out of it, or moves
another item into its place.
-/
import JulongApi.Proofs.OverridePaths

namespace JulongApi.Override

open JsonTree

variable {F : Type} {lib : PathLibrary F}

/-- A path that names its components as they are, none of them an end of an array. -/
structure LiteralPath (path : String) (components : List String) : Prop where
  joined : path = ".".intercalate components
  notEmpty : path ≠ ""
  plain : ∀ component ∈ components, PlainComponent component
  names : components.all isName = true
  noEnd : appendComponent ∉ components

theorem LiteralPath.spells {path : String} {components : List String}
    (h : LiteralPath path components) : Spells isName path components := by
  refine ⟨?_, h.joined, h.names⟩
  rw [h.joined]
  exact (readPath_join_iff components).mpr ⟨by rw [← h.joined]; exact h.notEmpty, h.plain⟩

theorem LiteralPath.ne_nil {path : String} {components : List String}
    (h : LiteralPath path components) : components ≠ [] := by
  rintro rfl
  exact h.notEmpty (by rw [h.joined, String.intercalate_nil])

/-- No string with a bracket or a brace is in the way: on the path of the target, and, where the
target is above the source, on the rest of the source's path in the value that is moved. -/
structure OutsideTexts (source target : List String) (data : Json F) : Prop where
  write : entersText target data = false
  delete : ∀ v above below, getAt source data = some v → locate target data = some above →
    locate source data = some (above ++ below) → entersText (source.drop target.length) v = false

theorem moveValue_eq_ok (hlib : lib.Documented isName) {data result : Json F}
    {fromPath toPath : String} {source target : List String} (hfrom : LiteralPath fromPath source)
    (hto : LiteralPath toPath target) (houtside : OutsideTexts source target data)
    (h : lib.moveValue data fromPath toPath = .ok result) :
    ∃ v written, getAt source data = some v ∧
      setAt (v.mapNumber lib.float) target data = some written ∧
        result = deleteAt source written := by
  unfold PathLibrary.moveValue at h
  rw [hlib.get _ _ _ hfrom.spells] at h
  cases hget : getAt source data with
  | none =>
    rw [hget] at h
    cases h
  | some v =>
    rw [hget] at h
    dsimp only at h
    cases hset : setAt (v.mapNumber lib.float) target data with
    | none =>
      obtain ⟨message, hfails⟩ := hlib.setFails _ _ _ _ hto.spells houtside.write hset
      rw [hfails] at h
      cases h
    | some written =>
      rw [hlib.set _ _ _ _ _ hto.spells houtside.write hset] at h
      have hclear : entersText source written = false :=
        entersText_setAt hto.noEnd hget hset fun above below habove hbelow => by
          rw [entersText_mapNumber]
          exact houtside.delete v above below hget habove hbelow
      have hdelete := hlib.delete written fromPath source hfrom.spells hclear
      have hresult : (lib.delete written fromPath).mapError OverrideError.library = .ok result :=
        h
      rw [hdelete] at hresult
      cases hresult
      exact ⟨v, written, rfl, hset, rfl⟩

/-- **The value of the source is read at the target exactly where it arrives.** -/
theorem move_arrives_iff (hlib : lib.Documented isName) {data result : Json F}
    {fromPath toPath : String} {source target : List String}
    (hfrom : LiteralPath (lib.processNegativeIndex data fromPath) source)
    (hto : LiteralPath (lib.processNegativeIndex data toPath) target)
    (houtside : OutsideTexts source target data)
    (hmove : lib.applyMove data fromPath toPath = .ok result) :
    ∃ v, lib.get data (lib.processNegativeIndex data fromPath) = some v ∧
      (lib.get result (lib.processNegativeIndex data toPath) = some v ↔
        Arrives v (v.mapNumber lib.float) source target data) := by
  obtain ⟨v, written, hget, hset, rfl⟩ := moveValue_eq_ok hlib hfrom hto houtside hmove
  refine ⟨v, by rw [hlib.get _ _ _ hfrom.spells, hget], ?_⟩
  rw [hlib.get _ _ _ hto.spells]
  exact arrives_iff (Json.nodes_mapNumber lib.float v) hfrom.ne_nil hto.ne_nil hfrom.noEnd hto.noEnd
    hget hset

/-! ### Moving aside, and moving in place -/

def oneField : Json Nat := .object [("a", .scalar (.number 1))]

theorem literal_a : LiteralPath "a" ["a"] :=
  ⟨by decide +kernel, by decide, by decide +kernel, by decide, by decide +kernel⟩

theorem literal_b : LiteralPath "b" ["b"] :=
  ⟨by decide +kernel, by decide, by decide +kernel, by decide, by decide +kernel⟩

theorem oneField_outside : OutsideTexts ["a"] ["b"] oneField :=
  ⟨rfl, fun _ _ _ _ _ _ => rfl⟩

/-- A field is moved to another. -/
theorem moved_aside : ∃ result, (plainLibrary : PathLibrary Nat).applyMove oneField "a" "b"
      = .ok result ∧
    ∃ v, plainLibrary.get oneField (plainLibrary.processNegativeIndex oneField "a") = some v ∧
      plainLibrary.get result (plainLibrary.processNegativeIndex oneField "b") = some v := by
  refine ⟨.object [("b", .scalar (.number 1))], rfl, ?_⟩
  obtain ⟨v, hget, hiff⟩ := @move_arrives_iff Nat plainLibrary (plainLibrary_documented isName)
    oneField (.object [("b", .scalar (.number 1))]) "a" "b" ["a"] ["b"] literal_a literal_b
    oneField_outside rfl
  refine ⟨v, hget, hiff.mpr ?_⟩
  cases hget
  exact rfl

/-- A field that is moved to itself is gone. -/
theorem moved_in_place : ¬ ∀ (lib : PathLibrary Nat), lib.Documented isName →
    ∀ (data result : Json Nat) (fromPath toPath : String) (source target : List String),
      LiteralPath (lib.processNegativeIndex data fromPath) source →
      LiteralPath (lib.processNegativeIndex data toPath) target →
        lib.applyMove data fromPath toPath = .ok result →
          lib.get result (lib.processNegativeIndex data toPath)
            = lib.get data (lib.processNegativeIndex data fromPath) := by
  intro hall
  have h := hall plainLibrary (plainLibrary_documented isName) oneField (.object []) "a" "a" ["a"]
    ["a"] literal_a literal_a rfl
  cases h

end JulongApi.Override
