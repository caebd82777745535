/-
How many draws select a candidate.

Both selectors subtract the candidates' weights from the number they have drawn.  The memory cache
stops below zero, so a candidate has as many draws as its effective weight.  The database stops at
zero already: one draw goes from the last ability to the first.
-/
import JulongApi.Lib.WeightedDraw
import JulongApi.Proofs.ChannelSelect

namespace JulongApi.Channels

open WeightedDraw

/-! ### The loops are walks -/

theorem pickByWeight_eq_draw (factor adjustment : Nat) : ∀ (channels : List Channel) (r : Nat),
    pickByWeight factor adjustment channels (r : Int)
      = match draw (effectiveWeight factor adjustment) channels r with
        | some channel => .ok channel
        | none => .error .notFound := by
  intro channels
  induction channels with
  | nil => intro r; rfl
  | cons channel rest ih =>
    intro r
    have heff : channel.getWeight * factor + adjustment
        = effectiveWeight factor adjustment channel := rfl
    by_cases h : r < effectiveWeight factor adjustment channel
    · rw [draw_of_lt h, pickByWeight, heff]
      exact if_pos (by omega)
    · have hsub : (r : Int) - (effectiveWeight factor adjustment channel : Nat)
          = ((r - effectiveWeight factor adjustment channel : Nat) : Int) := by omega
      rw [pickByWeight, heff, draw, if_neg h]
      rw [if_neg (by omega), hsub, ih]

def Ability.drawWeight (ability : Ability) : Nat := ability.weight + 10

theorem pickAbility_eq_draw : ∀ (abilities : List Ability) (r : Nat),
    pickAbility abilities (r : Int)
      = match drawEarly Ability.drawWeight abilities r with
        | some ability => ability.channelId
        | none => 0 := by
  intro abilities
  induction abilities with
  | nil => intro r; rfl
  | cons ability rest ih =>
    intro r
    have hweight : (ability.weight : Int) + 10 = (ability.drawWeight : Nat) := by
      simp [Ability.drawWeight]
    by_cases h : r ≤ ability.drawWeight
    · rw [pickAbility, drawEarly, if_pos h, hweight]
      exact if_pos (by omega)
    · have hsub : (r : Int) - (ability.drawWeight : Nat)
          = ((r - ability.drawWeight : Nat) : Int) := by omega
      rw [pickAbility, drawEarly, if_neg h, hweight]
      rw [if_neg (by omega), hsub, ih]

/-! ### The memory cache -/

def smoothingFactor (channels : List Channel) : Nat :=
  let sumWeight := (channels.map (·.getWeight)).sum
  if sumWeight = 0 then 1 else if sumWeight / channels.length < 10 then 100 else 1

def smoothingAdjustment (channels : List Channel) : Nat :=
  if (channels.map (·.getWeight)).sum = 0 then 100 else 0

/-- The weight a candidate of `GetRandomSatisfiedChannel` counts with. -/
def smoothedWeight (channels : List Channel) : Channel → Nat :=
  effectiveWeight (smoothingFactor channels) (smoothingAdjustment channels)

def totalWeight (channels : List Channel) : Nat :=
  let sumWeight := (channels.map (·.getWeight)).sum
  if sumWeight = 0 then channels.length * 100 * smoothingFactor channels
  else sumWeight * smoothingFactor channels

theorem totalWeight_eq (channels : List Channel) :
    totalWeight channels = total (smoothedWeight channels) channels := by
  rw [total, smoothedWeight, sum_effectiveWeight]
  unfold totalWeight smoothingAdjustment
  by_cases h : (channels.map (·.getWeight)).sum = 0
  · simp [h, smoothingFactor]
  · simp [h]

variable {r retry : Nat} {abilities : List Ability}

theorem selectByWeight_eq_draw (channels : List Channel) (hr : r < totalWeight channels) :
    selectByWeight channels r
      = match draw (smoothedWeight channels) channels r with
        | some channel => .ok channel
        | none => .error .notFound := by
  rw [smoothedWeight, ← pickByWeight_eq_draw]
  unfold selectByWeight smoothingFactor smoothingAdjustment
  unfold totalWeight smoothingFactor at hr
  by_cases h : (channels.map (·.getWeight)).sum = 0
  · simp only [h, if_pos, Nat.mul_one] at hr ⊢
    rw [Nat.mod_eq_of_lt hr]
  · simp only [if_neg h] at hr ⊢
    rw [Nat.mod_eq_of_lt hr]

/-- The draws of `GetRandomSatisfiedChannel` that select the channel with an id. -/
def memoryDraws (channels : List Channel) (id : Int) : Nat :=
  (List.range (totalWeight channels)).countP fun r =>
    match selectByWeight channels r with
    | .ok channel => decide (channel.id = id)
    | .error _ => false

theorem memoryDraws_eq (channels : List Channel) (id : Int) :
    memoryDraws channels id
      = total (smoothedWeight channels) (channels.filter fun channel => channel.id = id) := by
  rw [← draws_draw, ← totalWeight_eq]
  unfold memoryDraws draws
  refine List.countP_congr ?_
  intro r hr
  rw [selectByWeight_eq_draw channels (List.mem_range.mp hr)]
  cases draw (smoothedWeight channels) channels r with
  | none => simp
  | some channel => simp

theorem memory_never_falls_through (channels : List Channel) (hr : r < totalWeight channels) :
    ∃ channel ∈ channels, selectByWeight channels r = .ok channel := by
  rw [selectByWeight_eq_draw channels hr]
  rw [totalWeight_eq] at hr
  obtain ⟨channel, hmem, hdraw⟩ := draw_of_lt_total hr
  exact ⟨channel, hmem, by rw [hdraw]⟩

/-! ### The database -/

def targetAbilities (abilities : List Ability) (retry : Nat) : List Ability :=
  let priorities :=
    (abilities.map fun ability => ability.priority.getD 0).dedup.insertionSort (· ≥ ·)
  abilities.filter fun ability => ability.priority.getD 0 = targetPriority priorities retry

def weightSum (candidates : List Ability) : Nat :=
  (candidates.map fun ability => ability.weight + 10).sum

theorem weightSum_eq (candidates : List Ability) :
    weightSum candidates = total Ability.drawWeight candidates := rfl

theorem chooseAbility_eq_draw (hr : r < weightSum (targetAbilities abilities retry)) :
    chooseAbility abilities retry r
      = match drawEarly Ability.drawWeight (targetAbilities abilities retry) r with
        | some ability => ability.channelId
        | none => 0 := by
  have hchoose : chooseAbility abilities retry r
      = pickAbility (targetAbilities abilities retry)
          ((r % weightSum (targetAbilities abilities retry) : Nat) : Int) := rfl
  rw [hchoose, Nat.mod_eq_of_lt hr, pickAbility_eq_draw]

def databaseDraws (abilities : List Ability) (retry : Nat) (id : Int) : Nat :=
  (List.range (weightSum (targetAbilities abilities retry))).countP fun r =>
    chooseAbility abilities retry r = id

theorem database_never_falls_through (hr : r < weightSum (targetAbilities abilities retry)) :
    ∃ ability ∈ targetAbilities abilities retry,
      chooseAbility abilities retry r = ability.channelId := by
  rw [weightSum_eq] at hr
  have hne : targetAbilities abilities retry ≠ [] := by
    intro hnil
    rw [hnil] at hr
    simp at hr
  obtain ⟨ability, hmem, hdraw⟩ := drawEarly_of_lt_total hne hr
  refine ⟨ability, hmem, ?_⟩
  rw [chooseAbility_eq_draw hr, hdraw]

theorem databaseDraws_eq (abilities : List Ability) (retry : Nat) (id : Int) :
    databaseDraws abilities retry id
      = draws (drawEarly Ability.drawWeight (targetAbilities abilities retry))
          (fun ability => ability.channelId = id)
          (total Ability.drawWeight (targetAbilities abilities retry)) := by
  unfold databaseDraws draws
  rw [weightSum_eq]
  refine List.countP_congr ?_
  intro r hr
  have hlt := List.mem_range.mp hr
  have hne : targetAbilities abilities retry ≠ [] := by
    intro hnil
    rw [hnil] at hlt
    simp at hlt
  obtain ⟨ability, _, hdraw⟩ := drawEarly_of_lt_total hne hlt
  rw [chooseAbility_eq_draw hlt, hdraw]
  simp

theorem databaseDraws_add {first last : Ability}
    (hfirst : (targetAbilities abilities retry).head? = some first)
    (hlast : (targetAbilities abilities retry).getLast? = some last) (id : Int) :
    databaseDraws abilities retry id + (if last.channelId = id then 1 else 0)
      = weightSum ((targetAbilities abilities retry).filter fun ability => ability.channelId = id)
        + (if first.channelId = id then 1 else 0) := by
  have hpos : 0 < last.drawWeight := by simp [Ability.drawWeight]
  have h := draws_drawEarly (fun ability => decide (ability.channelId = id)) hfirst hlast hpos
  rw [databaseDraws_eq, weightSum_eq]
  simpa using h

/-- **The draws of a candidate against its weight.**  In the memory cache they always agree.  In
the database they agree for a candidate that is both the first and the last ability, or neither of
the two. -/
theorem draws_eq_weight_iff (id : Int) :
    (∀ channels : List Channel,
      memoryDraws channels id
          = ((channels.filter fun channel => channel.id = id).map (smoothedWeight channels)).sum
        ∧ ∀ r < totalWeight channels,
            ∃ channel ∈ channels, selectByWeight channels r = .ok channel)
      ∧ ∀ (abilities : List Ability) (retry : Nat),
        (databaseDraws abilities retry id
            = weightSum ((targetAbilities abilities retry).filter fun ability =>
                ability.channelId = id)
          ↔ ((targetAbilities abilities retry).head?.map Ability.channelId = some id
              ↔ (targetAbilities abilities retry).getLast?.map Ability.channelId = some id))
        ∧ ∀ r < weightSum (targetAbilities abilities retry),
            ∃ ability ∈ targetAbilities abilities retry,
              chooseAbility abilities retry r = ability.channelId := by
  refine ⟨fun channels => ⟨memoryDraws_eq channels id, fun r hr =>
    memory_never_falls_through channels hr⟩, ?_⟩
  intro abilities retry
  refine ⟨?_, fun r hr => database_never_falls_through hr⟩
  cases hfirst : (targetAbilities abilities retry).head? with
  | none =>
    have hnil := List.head?_eq_none_iff.mp hfirst
    simp [databaseDraws, weightSum, hnil]
  | some first =>
    cases hlast : (targetAbilities abilities retry).getLast? with
    | none =>
      rw [List.getLast?_eq_none_iff.mp hlast] at hfirst
      cases hfirst
    | some last =>
      have h := databaseDraws_add hfirst hlast id
      by_cases hf : first.channelId = id
      · by_cases hl : last.channelId = id
        · simp only [hf, hl, if_pos] at h
          simp [hf, hl]
          omega
        · simp only [hf, hl, if_pos, if_false] at h
          simp [hf, hl]
          omega
      · by_cases hl : last.channelId = id
        · simp only [hf, hl, if_pos, if_false] at h
          simp [hf, hl]
          omega
        · simp only [hf, hl, if_false] at h
          simp [hf, hl]
          omega

/-- Of two abilities that weigh the same the first has eleven draws of twenty. -/
theorem first_ability_gains : ¬ ∀ (abilities : List Ability) (retry : Nat) (id : Int),
    databaseDraws abilities retry id
      = weightSum ((targetAbilities abilities retry).filter fun ability =>
          ability.channelId = id) := by
  intro hall
  have h := hall [weightedAbility 1 0, weightedAbility 2 0] 0 1
  revert h
  decide +kernel

end JulongApi.Channels
