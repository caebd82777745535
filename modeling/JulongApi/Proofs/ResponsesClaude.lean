/-
What comes out of a Responses stream is a well-formed Claude stream, unless a tool without a name
leaves its place empty or an end that fails takes events along.

A block that has not been started has no place with the client; `Inv` says what the client has of
the others.  Every operation keeps it (`Inv.flushBlock`, `Inv.stopBlock`, `Inv.applyOutputItem`),
and so does a call that fails, as long as it has not made any events by then.  At the end all blocks
are stopped but the tools without a name, which must be the last ones (`NamedFirst`).
-/
import JulongApi.Lib.Except
import JulongApi.ResponsesClaude

namespace JulongApi.ResponsesClaude

open ClaudeStream BlockStream

open ResponsesEvent (Event Output Response)

/-- The Claude stream may have several blocks open at a time. -/
def lone (_ : ContentKind) : Bool := false

def StreamBlock.slot (block : StreamBlock) : Slot ContentKind :=
  if block.started = false then .unused
  else if block.stopped then .closed
  else .opened block.kind

def StreamBlock.Nameless (block : StreamBlock) : Prop := block.kind = .toolUse ∧ block.name = ""

instance (block : StreamBlock) : Decidable block.Nameless := instDecidableAnd

structure StreamState.Inv (s : StreamState) : Prop where
  unfinished : s.done = false
  tells : s.sentMessageStart = true → Tells lone s.events (listed (s.blocks.map (·.slot)))
  silent : s.sentMessageStart = false →
    s.events = [] ∧ ∀ block ∈ s.blocks, block.started = false
  index : ∀ (position : Nat) (block : StreamBlock), s.blocks[position]? = some block →
    block.index = position
  next : s.nextBlockIndex = s.blocks.length
  stopped : ∀ block ∈ s.blocks, block.stopped = true → block.started = true
  named : ∀ block ∈ s.blocks, block.started = true → ¬block.Nameless

/-! ### One block -/

section Block

variable {s : StreamState} {position : Nat} {block : StreamBlock} {f : StreamBlock → StreamBlock}

theorem getElem?_modifyBlock (h : s.blocks[position]? = some block) (i : Nat) :
    (s.modifyBlock position f).blocks[i]? =
      if position = i then some (f block) else s.blocks[i]? := by
  unfold StreamState.modifyBlock
  dsimp only
  by_cases heq : position = i
  · subst heq
    rw [List.getElem?_modify_eq, h, if_pos rfl, Option.map_eq_map, Option.map_some]
  · rw [List.getElem?_modify_ne _ _ heq, if_neg heq]

theorem mem_modifyBlock (h : s.blocks[position]? = some block) {other : StreamBlock}
    (hmem : other ∈ (s.modifyBlock position f).blocks) : other = f block ∨ other ∈ s.blocks := by
  obtain ⟨i, hi⟩ := List.mem_iff_getElem?.mp hmem
  rw [getElem?_modifyBlock h] at hi
  by_cases heq : position = i
  · rw [if_pos heq] at hi
    exact .inl (Option.some.inj hi).symm
  · rw [if_neg heq] at hi
    exact .inr (List.mem_of_getElem? hi)

theorem slots_modifyBlock (h : s.blocks[position]? = some block) :
    (s.modifyBlock position f).blocks.map (·.slot) =
      (s.blocks.map (·.slot)).set position (f block).slot := by
  refine List.ext_getElem? fun i => ?_
  rw [List.getElem?_map, getElem?_modifyBlock h, List.getElem?_set, List.getElem?_map]
  by_cases heq : position = i
  · subst heq
    have hlt : position < s.blocks.length := (List.getElem?_eq_some_iff.mp h).1
    rw [if_pos rfl, if_pos rfl, if_pos (by rwa [List.length_map])]
    rfl
  · rw [if_neg heq, if_neg heq]

/-- What a client is to know of a block is the same. -/
structure StreamBlock.Like (x y : StreamBlock) : Prop where
  index : y.index = x.index
  kind : y.kind = x.kind
  started : y.started = x.started
  stopped : y.stopped = x.stopped
  named : y.Nameless → x.Nameless

theorem StreamBlock.Like.slot {x y : StreamBlock} (h : x.Like y) : y.slot = x.slot := by
  unfold StreamBlock.slot
  rw [h.started, h.stopped, h.kind]

/--
A block is changed, and the client is told of it: the first events of a message are its start, and
those about the block take its slot to the new one.
-/
theorem StreamState.Inv.change (h : s.Inv) (hget : s.blocks[position]? = some block)
    (hsent : s.sentMessageStart = true) (hindex : (f block).index = position)
    (hstopped : (f block).stopped = true → (f block).started = true)
    (hnamed : (f block).started = true → ¬(f block).Nameless) {events : List ClaudeEvent}
    (hmoves : ∀ g : Nat → Slot ContentKind, g position = (f block).slot →
      (∀ i, i ≠ position → g i = listed (s.blocks.map (·.slot)) i) →
        ClaudeStream.Moves lone events (listed (s.blocks.map (·.slot))) g) :
    ((s.modifyBlock position f).emit events).Inv := by
  have hlt : position < (s.blocks.map (·.slot)).length := by
    rw [List.length_map]
    exact (List.getElem?_eq_some_iff.mp hget).1
  refine {
    unfinished := h.unfinished
    tells := fun _ => ?_
    silent := fun hsilent => absurd (hsent.symm.trans hsilent) (by simp)
    index := fun i other hother => ?_
    next := ?_
    stopped := fun other hother => ?_
    named := fun other hother => ?_ }
  · show Tells lone (s.events ++ events) (listed ((s.modifyBlock position f).blocks.map (·.slot)))
    rw [slots_modifyBlock hget]
    exact (h.tells hsent).moves
      (hmoves _ (listed_set_self hlt) fun i hi => listed_set_ne hi)
  · have hat : (s.modifyBlock position f).blocks[i]? = some other := hother
    rw [getElem?_modifyBlock hget] at hat
    by_cases heq : position = i
    · rw [if_pos heq] at hat
      rw [← Option.some.inj hat, hindex, heq]
    · rw [if_neg heq] at hat
      exact h.index i other hat
  · show s.nextBlockIndex = (s.modifyBlock position f).blocks.length
    rw [h.next]
    exact (List.length_modify ..).symm
  · obtain rfl | hold := mem_modifyBlock hget hother
    · exact hstopped
    · exact h.stopped other hold
  · obtain rfl | hold := mem_modifyBlock hget hother
    · exact hnamed
    · exact h.named other hold

theorem StreamState.Inv.likewise (h : s.Inv) (position : Nat)
    (hlike : ∀ block : StreamBlock, block.Like (f block)) :
    (s.modifyBlock position f).Inv := by
  cases hget : s.blocks[position]? with
  | none =>
    have hsame : s.modifyBlock position f = s := by
      unfold StreamState.modifyBlock
      rw [List.modify_eq_self (List.getElem?_eq_none_iff.mp hget)]
    rw [hsame]
    exact h
  | some block =>
    have hmem : block ∈ s.blocks := List.mem_of_getElem? hget
    have hslots : (s.modifyBlock position f).blocks.map (·.slot) = s.blocks.map (·.slot) := by
      rw [slots_modifyBlock hget, (hlike block).slot]
      have hlt : position < s.blocks.length := (List.getElem?_eq_some_iff.mp hget).1
      refine List.ext_getElem? fun i => ?_
      by_cases heq : position = i
      · subst heq
        rw [List.getElem?_set_self (by rwa [List.length_map]), List.getElem?_map, hget]
        rfl
      · rw [List.getElem?_set_ne heq]
    refine {
      unfinished := h.unfinished
      tells := fun hsent => ?_
      silent := fun hsilent => ⟨(h.silent hsilent).1, fun other hother => ?_⟩
      index := fun i other hother => ?_
      next := ?_
      stopped := fun other hother => ?_
      named := fun other hother => ?_ }
    · rw [hslots]
      exact h.tells hsent
    · obtain rfl | hold := mem_modifyBlock hget hother
      · rw [(hlike block).started]
        exact (h.silent hsilent).2 block hmem
      · exact (h.silent hsilent).2 other hold
    · rw [getElem?_modifyBlock hget] at hother
      by_cases heq : position = i
      · rw [if_pos heq] at hother
        rw [← Option.some.inj hother, (hlike block).index, ← heq]
        exact h.index position block hget
      · rw [if_neg heq] at hother
        exact h.index i other hother
    · show s.nextBlockIndex = (s.modifyBlock position f).blocks.length
      rw [h.next]
      exact (List.length_modify ..).symm
    · obtain rfl | hold := mem_modifyBlock hget hother
      · rw [(hlike block).stopped, (hlike block).started]
        exact h.stopped block hmem
      · exact h.stopped other hold
    · obtain rfl | hold := mem_modifyBlock hget hother
      · rw [(hlike block).started]
        exact fun hstarted hnameless =>
          h.named block hmem hstarted ((hlike block).named hnameless)
      · exact h.named other hold

theorem StreamState.Inv.sent (h : s.Inv) (hget : s.blocks[position]? = some block)
    (hstarted : block.started = true) : s.sentMessageStart = true := by
  by_contra hsilent
  rw [Bool.not_eq_true] at hsilent
  rw [(h.silent hsilent).2 block (List.mem_of_getElem? hget)] at hstarted
  cases hstarted

theorem listed_slot (hget : s.blocks[position]? = some block) :
    listed (s.blocks.map (·.slot)) position = block.slot := by
  unfold listed
  rw [List.getElem?_map, hget]
  rfl

theorem StreamBlock.slot_opened (hstarted : block.started = true)
    (hrunning : block.stopped = false) : block.slot = .opened block.kind := by
  unfold StreamBlock.slot
  rw [hstarted, hrunning]
  rfl

theorem StreamState.Inv.delta (h : s.Inv) (hget : s.blocks[position]? = some block)
    (hstarted : block.started = true) (hrunning : block.stopped = false) {delta : ContentDelta}
    (hkind : delta.kind = block.kind) : (s.emit [.contentBlockDelta block.index delta]).Inv := by
  have hsent := h.sent hget hstarted
  have hslot : listed (s.blocks.map (·.slot)) block.index = .opened delta.kind := by
    rw [h.index position block hget, hkind, listed_slot hget, block.slot_opened hstarted hrunning]
  exact {
    unfinished := h.unfinished
    tells := fun _ => (h.tells hsent).moves (.delta hslot)
    silent := fun hsilent => absurd (hsent.symm.trans hsilent) (by simp)
    index := h.index
    next := h.next
    stopped := h.stopped
    named := h.named }

theorem StreamState.Inv.ensureMessageStart (h : s.Inv) : s.ensureMessageStart.Inv := by
  unfold StreamState.ensureMessageStart
  by_cases hsent : s.sentMessageStart = true
  · rw [if_pos hsent]
    exact h
  · rw [if_neg hsent]
    rw [Bool.not_eq_true] at hsent
    obtain ⟨hevents, hunused⟩ := h.silent hsent
    refine {
      unfinished := h.unfinished
      tells := fun _ => ?_
      silent := fun hsilent => Bool.noConfusion hsilent
      index := h.index
      next := h.next
      stopped := h.stopped
      named := h.named }
    show Tells lone (s.events ++ _) _
    rw [hevents]
    refine (tells_messageStart s.id s.model).congr fun i => ?_
    show listed (s.blocks.map (·.slot)) i = .unused
    by_contra hused
    obtain ⟨block, hblock, hslot⟩ := List.mem_map.mp (mem_of_listed rfl hused)
    refine hused (hslot.symm.trans ?_)
    unfold StreamBlock.slot
    rw [hunused block hblock]
    rfl

end Block

/-! ### What the operations do to the blocks -/

structure Keeps (old new : List StreamBlock) : Prop where
  length : new.length = old.length
  nameless : ∀ (i : Nat) (x y : StreamBlock), old[i]? = some x → new[i]? = some y →
    (y.Nameless ↔ x.Nameless)
  stopped : ∀ (i : Nat) (x y : StreamBlock), old[i]? = some x → new[i]? = some y →
    x.stopped = true → y.stopped = true

section Keeps

variable {s : StreamState} {position : Nat} {block : StreamBlock} {f : StreamBlock → StreamBlock}
  {old mid new : List StreamBlock}

theorem Keeps.refl (blocks : List StreamBlock) : Keeps blocks blocks where
  length := rfl
  nameless := fun i x y hx hy => by
    cases hx.symm.trans hy
    exact Iff.rfl
  stopped := fun i x y hx hy => by
    cases hx.symm.trans hy
    exact id

theorem Keeps.at (h : Keeps old new) {i : Nat} {x : StreamBlock} (hx : old[i]? = some x) :
    ∃ y, new[i]? = some y := by
  have hlt : i < new.length := by
    rw [h.length]
    exact (List.getElem?_eq_some_iff.mp hx).1
  exact ⟨new[i], List.getElem?_eq_getElem hlt⟩

theorem Keeps.trans (hfirst : Keeps old mid) (hsecond : Keeps mid new) : Keeps old new where
  length := hsecond.length.trans hfirst.length
  nameless := fun i x z hx hz => by
    obtain ⟨y, hy⟩ := hfirst.at hx
    exact (hsecond.nameless i y z hy hz).trans (hfirst.nameless i x y hx hy)
  stopped := fun i x z hx hz hstopped => by
    obtain ⟨y, hy⟩ := hfirst.at hx
    exact hsecond.stopped i y z hy hz (hfirst.stopped i x y hx hy hstopped)

theorem Keeps.modify (hget : s.blocks[position]? = some block)
    (hnameless : (f block).Nameless ↔ block.Nameless)
    (hstopped : block.stopped = true → (f block).stopped = true) :
    Keeps s.blocks (s.modifyBlock position f).blocks where
  length := List.length_modify ..
  nameless := fun i x y hx hy => by
    rw [getElem?_modifyBlock hget] at hy
    by_cases heq : position = i
    · subst heq
      rw [if_pos rfl] at hy
      cases hget.symm.trans hx
      cases hy
      exact hnameless
    · rw [if_neg heq] at hy
      rw [Option.some.inj (hx.symm.trans hy)]
  stopped := fun i x y hx hy => by
    rw [getElem?_modifyBlock hget] at hy
    by_cases heq : position = i
    · subst heq
      rw [if_pos rfl] at hy
      cases hget.symm.trans hx
      cases hy
      exact hstopped
    · rw [if_neg heq] at hy
      rw [Option.some.inj (hx.symm.trans hy)]
      exact id

end Keeps

section Operations

variable {s : StreamState} {position : Nat} {block : StreamBlock}

theorem content_eq_none_iff : block.content = none ↔ block.Nameless := by
  unfold StreamBlock.content StreamBlock.Nameless
  cases hkind : block.kind with
  | text => simp
  | thinking => simp
  | toolUse =>
    by_cases hname : block.name = ""
    · simp [hname]
    · simp [hname]

theorem kind_of_content {content : ContentBlock} (h : block.content = some content) :
    content.kind = block.kind := by
  unfold StreamBlock.content at h
  cases hkind : block.kind with
  | text =>
    rw [hkind] at h
    cases h
    rfl
  | thinking =>
    rw [hkind] at h
    cases h
    rfl
  | toolUse =>
    rw [hkind] at h
    obtain ⟨hname, ⟨⟩⟩ := Option.ite_none_left_eq_some.mp h
    rfl

@[simp] theorem ensureMessageStart_blocks : s.ensureMessageStart.blocks = s.blocks := by
  unfold StreamState.ensureMessageStart StreamState.emit
  split <;> rfl

@[simp] theorem ensureMessageStart_sent : s.ensureMessageStart.sentMessageStart = true := by
  unfold StreamState.ensureMessageStart
  split
  · assumption
  · rfl

theorem StreamState.Inv.withSawToolCall (h : s.Inv) (saw : Bool) :
    { s with sawToolCall := saw }.Inv :=
  ⟨h.unfinished, h.tells, h.silent, h.index, h.next, h.stopped, h.named⟩

theorem StreamState.Inv.startBlock (h : s.Inv) (position : Nat) : (s.startBlock position).Inv := by
  unfold StreamState.startBlock
  cases hget : s.blocks[position]? with
  | none => exact h
  | some block =>
    dsimp only
    by_cases hskip : block.started = true ∨ block.stopped = true
    · rw [if_pos hskip]
      exact h
    · rw [if_neg hskip]
      rw [not_or, Bool.not_eq_true, Bool.not_eq_true] at hskip
      obtain ⟨hstarted, hrunning⟩ := hskip
      cases hcontent : block.content with
      | none => exact h
      | some content =>
        dsimp only
        have hready := (h.withSawToolCall
          (s.sawToolCall || block.kind == ContentKind.toolUse)).ensureMessageStart
        have hblocks : ({ s with
            sawToolCall := s.sawToolCall || block.kind == ContentKind.toolUse
            }.ensureMessageStart).blocks = s.blocks := ensureMessageStart_blocks
        have hsent : ({ s with
            sawToolCall := s.sawToolCall || block.kind == ContentKind.toolUse
            }.ensureMessageStart).sentMessageStart = true := ensureMessageStart_sent
        generalize { s with
          sawToolCall := s.sawToolCall || block.kind == ContentKind.toolUse
          }.ensureMessageStart = ready at hready hblocks hsent ⊢
        have hat : ready.blocks[position]? = some block := by rw [hblocks, hget]
        have hindex : block.index = position := h.index position block hget
        have hkind : content.kind = block.kind := kind_of_content hcontent
        refine hready.change hat hsent hindex (fun _ => rfl) (fun _ hnameless => ?_)
          fun g hself hothers => ?_
        · have hnone := content_eq_none_iff.mpr (show block.Nameless from hnameless)
          rw [hcontent] at hnone
          cases hnone
        · rw [hindex]
          refine .start ?_ (fun hlone => Bool.noConfusion hlone) ?_ hothers
          · rw [listed_slot hat]
            unfold StreamBlock.slot
            rw [hstarted]
            rfl
          · rw [hself, hkind]
            exact StreamBlock.slot_opened rfl hrunning

theorem getElem?_startBlock (hget : s.blocks[position]? = some block)
    (hrunning : block.stopped = false) :
    (s.startBlock position).blocks[position]? =
      some { block with started := block.started || block.content.isSome } := by
  unfold StreamState.startBlock
  rw [hget]
  dsimp only
  cases hstarted : block.started with
  | true =>
    rw [if_pos (.inl rfl), hget, Bool.true_or, ← hstarted]
  | false =>
    rw [if_neg (by simp [hrunning])]
    cases hcontent : block.content with
    | none =>
      dsimp only
      rw [hget, Option.isSome_none, Bool.or_false, ← hstarted]
    | some content =>
      dsimp only
      have hat : ({ s with
          sawToolCall := s.sawToolCall || block.kind == ContentKind.toolUse
          }.ensureMessageStart).blocks[position]? = some block := by
        rw [ensureMessageStart_blocks, hget]
      exact (getElem?_modifyBlock hat position).trans (if_pos rfl)

theorem keeps_startBlock (s : StreamState) (position : Nat) :
    Keeps s.blocks (s.startBlock position).blocks := by
  unfold StreamState.startBlock
  cases hget : s.blocks[position]? with
  | none => exact .refl _
  | some block =>
    dsimp only
    split
    · exact .refl _
    · cases block.content with
      | none => exact .refl _
      | some content =>
        dsimp only
        have hblocks : ({ s with
            sawToolCall := s.sawToolCall || block.kind == ContentKind.toolUse
            }.ensureMessageStart).blocks = s.blocks := ensureMessageStart_blocks
        generalize { s with
          sawToolCall := s.sawToolCall || block.kind == ContentKind.toolUse
          }.ensureMessageStart = ready at hblocks ⊢
        have hat : ready.blocks[position]? = some block := by rw [hblocks, hget]
        have hkeeps : Keeps ready.blocks (ready.modifyBlock position fun block =>
            { block with started := true }).blocks := .modify hat Iff.rfl id
        rw [hblocks] at hkeeps
        exact hkeeps

theorem delta_kind (piece : String) : (block.delta piece).kind = block.kind := by
  unfold StreamBlock.delta
  cases block.kind <;> rfl

theorem StreamState.Inv.sendValue (h : s.Inv)
    (hrunning : ∀ block, s.blocks[position]? = some block → (block : StreamBlock).stopped = false) :
    (s.sendValue position).Inv := by
  unfold StreamState.sendValue
  cases hget : s.blocks[position]? with
  | none => exact h
  | some block =>
    dsimp only
    by_cases hskip : block.started = false ∨ block.value.length ≤ block.sentBytes
    · rw [if_pos hskip]
      exact h
    · rw [if_neg hskip]
      rw [not_or, Bool.not_eq_false] at hskip
      have hlike : ∀ old : StreamBlock, old.Like { old with sentBytes := old.value.length } :=
        fun old => ⟨rfl, rfl, rfl, rfl, fun h => h⟩
      have hmodified := h.likewise position hlike
      have hat := (@getElem?_modifyBlock s position block
        (fun old => { old with sentBytes := old.value.length }) hget position).trans (if_pos rfl)
      have hkind : (block.delta (String.ofList (block.value.toList.drop block.sentBytes))).kind =
          block.kind := delta_kind _
      exact hmodified.delta hat hskip.1 (hrunning block hget) hkind

theorem keeps_sendValue (s : StreamState) (position : Nat) :
    Keeps s.blocks (s.sendValue position).blocks := by
  unfold StreamState.sendValue
  cases hget : s.blocks[position]? with
  | none => exact .refl _
  | some block =>
    dsimp only
    split
    · exact .refl _
    · exact .modify hget Iff.rfl id

theorem running_iff : s.running position = true ↔
    ∃ block, s.blocks[position]? = some block ∧ block.stopped = false := by
  unfold StreamState.running
  cases s.blocks[position]? with
  | none => simp
  | some block => simp

theorem StreamState.Inv.flushBlock (h : s.Inv) (position : Nat) : (s.flushBlock position).Inv := by
  unfold StreamState.flushBlock
  by_cases hrunning : s.running position = true
  · rw [if_pos hrunning]
    obtain ⟨block, hget, hopen⟩ := running_iff.mp hrunning
    refine (h.startBlock position).sendValue fun other hother => ?_
    rw [getElem?_startBlock hget hopen] at hother
    cases hother
    exact hopen
  · rw [if_neg hrunning]
    exact h

theorem keeps_flushBlock (s : StreamState) (position : Nat) :
    Keeps s.blocks (s.flushBlock position).blocks := by
  unfold StreamState.flushBlock
  split
  · exact (keeps_startBlock s position).trans (keeps_sendValue _ position)
  · exact .refl _

theorem StreamState.Inv.appendDelta (h : s.Inv) (position : Nat) (delta : String) :
    (s.appendDelta position delta).Inv := by
  unfold StreamState.appendDelta
  split
  · exact h
  · have hlike : ∀ block : StreamBlock, block.Like { block with value := block.value ++ delta } :=
      fun block => ⟨rfl, rfl, rfl, rfl, fun h => h⟩
    exact (h.likewise position hlike).flushBlock position

theorem like_mergeFinalValue (block : StreamBlock) (finalValue : String) :
    block.Like (block.mergeFinalValue finalValue) := by
  unfold StreamBlock.mergeFinalValue
  split
  · exact ⟨rfl, rfl, rfl, rfl, fun h => h⟩
  · split <;> exact ⟨rfl, rfl, rfl, rfl, fun h => h⟩

theorem StreamState.Inv.mergeFinalValue (h : s.Inv) (position : Nat) (finalValue : String) :
    (s.mergeFinalValue position finalValue).Inv := by
  unfold StreamState.mergeFinalValue
  split
  · exact (h.likewise position fun block => like_mergeFinalValue block finalValue).flushBlock
      position
  · exact h

theorem getElem?_flushBlock (hget : s.blocks[position]? = some block)
    (hrunning : block.stopped = false) :
    ∃ flushed, (s.flushBlock position).blocks[position]? = some flushed ∧
      flushed.stopped = false := by
  unfold StreamState.flushBlock
  rw [if_pos (running_iff.mpr ⟨block, hget, hrunning⟩)]
  have hstarted := getElem?_startBlock hget hrunning
  unfold StreamState.sendValue
  rw [hstarted]
  dsimp only
  split
  · exact ⟨_, hstarted, hrunning⟩
  · exact ⟨_, (getElem?_modifyBlock hstarted position).trans (if_pos rfl), hrunning⟩

theorem stopBlock_cases (hrunning : s.running position = true) :
    ∃ ready block, ready = (s.flushBlock position).startBlock position ∧
      ready.blocks[position]? = some block ∧ block.stopped = false ∧
      (block.started = false → block.Nameless) ∧
      s.stopBlock position =
        if block.started = false then ready
        else (ready.modifyBlock position fun block => { block with stopped := true }).emit
          [.contentBlockStop block.index] := by
  obtain ⟨first, hfirst, hopen⟩ := running_iff.mp hrunning
  obtain ⟨flushed, hflushed, hflushedOpen⟩ := getElem?_flushBlock hfirst hopen
  have hready := getElem?_startBlock hflushed hflushedOpen
  refine ⟨_, _, rfl, hready, hflushedOpen, fun hnot => ?_, ?_⟩
  · have hnone : flushed.content = none := by
      rw [Bool.or_eq_false_iff] at hnot
      exact Option.isNone_iff_eq_none.mp (Option.not_isSome _ ▸ by rw [hnot.2]; rfl)
    exact content_eq_none_iff.mp hnone
  · unfold StreamState.stopBlock
    rw [if_pos hrunning]
    dsimp only
    rw [hready]

theorem StreamState.Inv.stopBlock (h : s.Inv) (position : Nat) : (s.stopBlock position).Inv := by
  by_cases hrunning : s.running position = true
  · obtain ⟨ready, block, hready, hget, hopen, hnameless, hstop⟩ := stopBlock_cases hrunning
    have hinv : ready.Inv := by
      rw [hready]
      exact (h.flushBlock position).startBlock position
    rw [hstop]
    by_cases hstarted : block.started = false
    · rw [if_pos hstarted]
      exact hinv
    · rw [if_neg hstarted]
      rw [Bool.not_eq_false] at hstarted
      have hindex := hinv.index position block hget
      refine hinv.change hget (hinv.sent hget hstarted) hindex (fun _ => hstarted)
        (fun _ => hinv.named block (List.mem_of_getElem? hget) hstarted) fun g hself hothers => ?_
      rw [hindex]
      refine .stop ((listed_slot hget).trans (block.slot_opened hstarted hopen)) ?_ hothers
      rw [hself]
      unfold StreamBlock.slot
      rw [hstarted]
      rfl
  · unfold StreamState.stopBlock
    rw [if_neg hrunning]
    exact h

theorem keeps_stopBlock (s : StreamState) (position : Nat) :
    Keeps s.blocks (s.stopBlock position).blocks := by
  by_cases hrunning : s.running position = true
  · obtain ⟨ready, block, hready, hget, hopen, -, hstop⟩ := stopBlock_cases hrunning
    have hkeeps : Keeps s.blocks ready.blocks := by
      rw [hready]
      exact (keeps_flushBlock s position).trans (keeps_startBlock _ position)
    rw [hstop]
    split
    · exact hkeeps
    · exact hkeeps.trans (.modify hget Iff.rfl fun _ => rfl)
  · unfold StreamState.stopBlock
    rw [if_neg hrunning]
    exact .refl _

def StreamBlock.Settled (block : StreamBlock) : Prop := block.stopped = true ∨ block.Nameless

theorem settled_stopBlock (hget : (s.stopBlock position).blocks[position]? = some block) :
    block.Settled := by
  by_cases hrunning : s.running position = true
  · obtain ⟨ready, last, -, hready, -, hnameless, hstop⟩ := stopBlock_cases hrunning
    rw [hstop] at hget
    by_cases hstarted : last.started = false
    · rw [if_pos hstarted, hready] at hget
      cases hget
      exact .inr (hnameless hstarted)
    · rw [if_neg hstarted] at hget
      have hat := (getElem?_modifyBlock hready position).symm.trans hget
      rw [if_pos rfl] at hat
      cases hat
      exact .inl rfl
  · unfold StreamState.stopBlock at hget
    rw [if_neg hrunning] at hget
    left
    by_contra hopen
    exact hrunning (running_iff.mpr ⟨block, hget, Bool.eq_false_iff.mpr hopen⟩)

theorem StreamState.Inv.reasoningDelta (h : s.Inv) (position : Nat) (delta : String) :
    (s.reasoningDelta position delta).Inv := by
  unfold StreamState.reasoningDelta
  split
  · have hlike : ∀ block : StreamBlock,
        block.Like { block with needsReasoningBreak := false } :=
      fun block => ⟨rfl, rfl, rfl, rfl, fun h => h⟩
    exact (h.likewise position hlike).appendDelta position _
  · exact h.appendDelta position delta

theorem StreamState.Inv.reasoningDone (h : s.Inv) (position : Nat) (text : Option String) :
    (s.reasoningDone position text).Inv := by
  have hlike : ∀ block : StreamBlock, block.Like { block with
      needsReasoningBreak := block.needsReasoningBreak || block.value != "" } :=
    fun block => ⟨rfl, rfl, rfl, rfl, fun h => h⟩
  unfold StreamState.reasoningDone
  cases text with
  | none => exact h.likewise position hlike
  | some text => exact (h.mergeFinalValue position text).likewise position hlike

end Operations

/-! ### Items -/

section Items

variable {codec : Codec} {s t : StreamState} {position : Nat} {block : StreamBlock} {event : Event}

theorem StreamState.Inv.deltas {deltas : List ContentDelta} : ∀ {s : StreamState}, s.Inv →
    s.blocks[position]? = some block → block.started = true → block.stopped = false →
      (∀ delta ∈ deltas, ContentDelta.kind delta = block.kind) →
        (s.emit (deltas.map fun delta => .contentBlockDelta block.index delta)).Inv := by
  induction deltas with
  | nil =>
    intro s h _ _ _ _
    show StreamState.Inv { s with events := s.events ++ [] }
    rw [List.append_nil]
    exact h
  | cons delta rest ih =>
    intro s h hget hstarted hrunning hkind
    have hfirst := h.delta hget hstarted hrunning (hkind delta (by simp))
    have hrest := ih hfirst hget hstarted hrunning fun d hd => hkind d (List.mem_cons_of_mem _ hd)
    unfold StreamState.emit at hrest ⊢
    dsimp only at hrest
    rw [List.append_assoc] at hrest
    exact hrest

theorem StreamState.Inv.appendAnnotations (h : s.Inv) (codec : Codec) (position : Nat)
    (annotations : List String) (snapshot : Bool) :
    (s.appendAnnotations codec position annotations snapshot).Inv := by
  unfold StreamState.appendAnnotations
  cases hget : s.blocks[position]? with
  | none => exact h
  | some block =>
    dsimp only
    by_cases hskip : block.kind ≠ .text ∨ block.stopped = true ∨ annotations = []
    · rw [if_pos hskip]
      exact h
    · rw [if_neg hskip]
      rw [not_or, not_or, not_not, Bool.not_eq_true] at hskip
      obtain ⟨htext, hrunning, -⟩ := hskip
      generalize block.remaining annotations snapshot = new
      obtain ⟨remaining, count⟩ := new
      dsimp only
      by_cases hnone : remaining = []
      · rw [if_pos hnone]
        exact h
      · rw [if_neg hnone]
        have hlike : ∀ old : StreamBlock, old.Like { old with annotationCount := count } :=
          fun old => ⟨rfl, rfl, rfl, rfl, fun h => h⟩
        have hcounted := h.likewise position hlike
        split
        · exact hcounted
        · have hat := (@getElem?_modifyBlock s position block
            (fun old => { old with annotationCount := count }) hget position).trans (if_pos rfl)
          have hstarted := getElem?_startBlock hat hrunning
          have hopen : (({ block with annotationCount := count }).started ||
              ({ block with annotationCount := count }).content.isSome) = true := by
            rw [Bool.or_eq_true]
            right
            unfold StreamBlock.content
            dsimp only
            rw [htext]
            rfl
          have hkinds : ∀ delta ∈ (codec.annotationsToClaude remaining block.value).map
              ContentDelta.citations, delta.kind = block.kind := by
            intro delta hdelta
            obtain ⟨citation, -, rfl⟩ := List.mem_map.mp hdelta
            exact htext.symm
          have hdeltas := (hcounted.startBlock position).deltas hstarted hopen hrunning hkinds
          rw [List.map_map] at hdeltas
          exact hdeltas

theorem StreamState.Inv.mergeItem (h : s.Inv) (codec : Codec) (position : Nat) (item : Output)
    (kind : ContentKind) : (s.mergeItem codec position item kind).Inv := by
  cases kind with
  | thinking => exact h.mergeFinalValue position _
  | text => exact (h.mergeFinalValue position _).appendAnnotations codec position _ true
  | toolUse => exact h.mergeFinalValue position _

theorem like_takeEvent (block : StreamBlock) (event : Event) :
    block.Like (block.takeEvent event) := by
  have hname : ∀ (old : StreamBlock) (item : Output), (old.takeItem item).Nameless →
      old.Nameless := by
    intro old item hnameless
    unfold StreamBlock.takeItem StreamBlock.Nameless at hnameless
    dsimp only at hnameless
    by_cases hitem : trimSpace item.name = ""
    · rw [if_neg (not_not.mpr hitem)] at hnameless
      exact hnameless
    · rw [if_pos hitem] at hnameless
      exact absurd hnameless.2 hitem
  unfold StreamBlock.takeEvent
  dsimp only
  cases event.item with
  | none =>
    dsimp only
    split <;> exact ⟨rfl, rfl, rfl, rfl, fun h => h⟩
  | some item =>
    dsimp only
    split
    · exact ⟨rfl, rfl, rfl, rfl, fun h => hname _ item h⟩
    · exact ⟨rfl, rfl, rfl, rfl, fun h => hname _ item h⟩

theorem StreamState.Inv.newBlock (h : s.Inv) (kind : ContentKind) : (s.newBlock kind).Inv := by
  have hmem : ∀ block ∈ (s.newBlock kind).blocks, block ∈ s.blocks ∨
      block = { index := s.nextBlockIndex, kind := kind } := by
    intro block hblock
    obtain hold | hnew := List.mem_append.mp hblock
    · exact .inl hold
    · exact .inr (List.mem_singleton.mp hnew)
  refine {
    unfinished := h.unfinished
    tells := fun hsent => (h.tells hsent).congr fun i => ?_
    silent := fun hsilent => ⟨(h.silent hsilent).1, fun block hblock => ?_⟩
    index := fun i block hblock => ?_
    next := ?_
    stopped := fun block hblock => ?_
    named := fun block hblock => ?_ }
  · unfold StreamState.newBlock
    dsimp only
    rw [List.map_append]
    exact listed_append_unused
  · obtain hold | rfl := hmem block hblock
    · exact (h.silent hsilent).2 block hold
    · rfl
  · change (s.blocks ++ [{ index := s.nextBlockIndex, kind := kind }])[i]? = some block at hblock
    by_cases hlt : i < s.blocks.length
    · rw [List.getElem?_append_left hlt] at hblock
      exact h.index i block hblock
    · rw [List.getElem?_append_right (not_lt.mp hlt)] at hblock
      have hi : i - s.blocks.length = 0 := by
        have := (List.getElem?_eq_some_iff.mp hblock).1
        rw [List.length_singleton] at this
        omega
      rw [hi] at hblock
      cases hblock
      show s.nextBlockIndex = i
      rw [h.next]
      omega
  · show s.nextBlockIndex + 1 = (s.blocks ++ [_]).length
    rw [List.length_append, List.length_singleton, h.next]
  · obtain hold | rfl := hmem block hblock
    · exact h.stopped block hold
    · exact fun hstopped => Bool.noConfusion hstopped
  · obtain hold | rfl := hmem block hblock
    · exact h.named block hold
    · exact fun hstarted => Bool.noConfusion hstarted

theorem StreamState.Inv.claimBlock (h : s.Inv) (event : Event) (kind : ContentKind) :
    (s.claimBlock event kind).1.Inv ∧ (s.claimBlock event kind).1.events = s.events := by
  unfold StreamState.claimBlock
  split
  · exact ⟨h, rfl⟩
  · split
    · exact ⟨h, rfl⟩
    · exact ⟨h.newBlock kind, rfl⟩

/-- A part of a call: it keeps the invariant, and it fails before it has made any events. -/
structure Sound (s : StreamState) (result : Except Failure StreamState) : Prop where
  ok : ∀ t, result = .ok t → t.Inv
  error : ∀ failure, result = .error failure →
    failure.left.Inv ∧ failure.left.events = s.events

theorem Sound.of_inv (h : t.Inv) : Sound s (.ok t) where
  ok := fun u hu => by
    cases hu
    exact h
  error := fun failure hfailure => by cases hfailure

theorem Sound.of_error {failure : Failure} (h : failure.left.Inv)
    (hevents : failure.left.events = s.events) : Sound s (.error failure) where
  ok := fun u hu => by cases hu
  error := fun other hother => by
    rw [← Except.error.inj hother]
    exact ⟨h, hevents⟩

theorem StreamState.Inv.ensureBlock (h : s.Inv) (event : Event) (kind : ContentKind)
    {next : StreamState × Nat → Except Failure StreamState}
    (hnext : ∀ t position, StreamState.Inv t → t.events = s.events →
      Sound s (next (t, position))) :
    Sound s (s.ensureBlock event kind >>= next) := by
  obtain ⟨hclaimed, hevents⟩ := h.claimBlock event kind
  unfold StreamState.ensureBlock
  generalize s.claimBlock event kind = claim at hclaimed hevents ⊢
  obtain ⟨claimed, position⟩ := claim
  dsimp only at hclaimed hevents ⊢
  cases hget : claimed.blocks[position]? with
  | none => exact hnext claimed position hclaimed hevents
  | some block =>
    dsimp only
    by_cases hkind : block.kind ≠ kind
    · rw [if_pos hkind]
      exact .of_error hclaimed hevents
    · rw [if_neg hkind]
      have hmodified := hclaimed.likewise position fun block => like_takeEvent block event
      refine hnext _ position ?_ hevents
      exact ⟨hmodified.unfinished, hmodified.tells, hmodified.silent, hmodified.index,
        hmodified.next, hmodified.stopped, hmodified.named⟩

theorem StreamState.Inv.applyOutputItem (h : s.Inv) (codec : Codec) (event : Event) (stop : Bool) :
    Sound s (s.applyOutputItem codec event stop) := by
  unfold StreamState.applyOutputItem
  cases event.item with
  | none => exact .of_inv h
  | some item =>
    dsimp only
    cases itemKind item with
    | none => exact .of_inv h
    | some kind =>
      refine h.ensureBlock event kind fun t position ht _ => ?_
      have hmerged := ht.mergeItem codec position item kind
      dsimp only
      split
      · exact .of_inv (hmerged.stopBlock position)
      · exact .of_inv hmerged

end Items

/-! ### The end -/

section End

variable {codec : Codec} {s t : StreamState} {event : Event} {response : Option Response}

theorem StreamState.Inv.applyResponseMetadata (h : s.Inv) (response : Option Response) :
    (s.applyResponseMetadata response).Inv ∧
      (s.applyResponseMetadata response).events = s.events := by
  cases response with
  | none => exact ⟨h, rfl⟩
  | some response =>
    exact ⟨⟨h.unfinished, h.tells, h.silent, h.index, h.next, h.stopped, h.named⟩, rfl⟩

/-- The items of a response one after the other; one that fails may have events before it. -/
theorem StreamState.Inv.applyItems (codec : Codec) : ∀ {events : List Event} {s : StreamState},
    s.Inv →
      (∀ t, events.foldlM (fun s event => s.applyOutputItem codec event true) s = .ok t → t.Inv) ∧
      ∀ failure, events.foldlM (fun s event => s.applyOutputItem codec event true) s =
        .error failure → failure.left.Inv := by
  intro events
  induction events with
  | nil =>
    intro s h
    refine ⟨fun t ht => ?_, fun failure hfailure => by cases hfailure⟩
    cases ht
    exact h
  | cons event rest ih =>
    intro s h
    have hsound := h.applyOutputItem codec event true
    rw [List.foldlM_cons]
    cases hfirst : s.applyOutputItem codec event true with
    | error failure =>
      refine ⟨fun t ht => ?_, fun other hother => ?_⟩
      · cases ht
      · rw [← Except.error.inj hother]
        exact (hsound.error failure hfirst).1
    | ok mid => exact ih (hsound.ok mid hfirst)

theorem StreamState.Inv.applySnapshot (h : s.Inv) (codec : Codec) (response : Option Response) :
    (∀ t, s.applySnapshot codec response = .ok t → t.Inv) ∧
      ∀ failure, s.applySnapshot codec response = .error failure → failure.left.Inv := by
  have hready := (h.applyResponseMetadata response).1
  unfold StreamState.applySnapshot
  cases response with
  | none =>
    refine ⟨fun t ht => ?_, fun failure hfailure => by cases hfailure⟩
    cases ht
    exact hready
  | some response => exact hready.applyItems codec

/-- What the blocks must be when they are all stopped: tools without a name come last. -/
def StreamState.NamedFirst (s : StreamState) : Prop :=
  s.blocks.Pairwise fun x y => x.Nameless → y.Nameless

instance (s : StreamState) : Decidable s.NamedFirst :=
  inferInstanceAs (Decidable (List.Pairwise _ _))

theorem StreamState.Inv.stopBlocks : ∀ (n : Nat) {s : StreamState}, s.Inv → n ≤ s.blocks.length →
    ((List.range n).foldl StreamState.stopBlock s).Inv ∧
      Keeps s.blocks ((List.range n).foldl StreamState.stopBlock s).blocks ∧
      ∀ i < n, ∀ block, ((List.range n).foldl StreamState.stopBlock s).blocks[i]? = some block →
        StreamBlock.Settled block := by
  intro n
  induction n with
  | zero => exact fun h _ => ⟨h, .refl _, fun i hi => absurd hi (Nat.not_lt_zero i)⟩
  | succ n ih =>
    intro s h hn
    obtain ⟨hinv, hkeeps, hsettled⟩ := ih h (by omega)
    rw [List.range_succ, List.foldl_append, List.foldl_cons, List.foldl_nil]
    generalize (List.range n).foldl StreamState.stopBlock s = before at hinv hkeeps hsettled ⊢
    have hstep := keeps_stopBlock before n
    refine ⟨hinv.stopBlock n, hkeeps.trans hstep, fun i hi block hblock => ?_⟩
    by_cases heq : i = n
    · subst heq
      exact settled_stopBlock hblock
    · have hlt : i < before.blocks.length := by
        rw [hkeeps.length]
        omega
      have hbefore := List.getElem?_eq_getElem hlt
      obtain hstopped | hnameless := hsettled i (by omega) _ hbefore
      · exact .inl (hstep.stopped i _ _ hbefore hblock hstopped)
      · exact .inr ((hstep.nameless i _ _ hbefore hblock).mpr hnameless)

theorem StreamState.Inv.slot_settled (h : s.Inv) {block : StreamBlock} (hblock : block ∈ s.blocks)
    (hsettled : block.Settled) :
    block.slot = if block.Nameless then .unused else .closed := by
  unfold StreamBlock.slot
  by_cases hstarted : block.started = true
  · have hnamed := h.named block hblock hstarted
    obtain hstopped | hnameless := hsettled
    · rw [if_neg (by simp [hstarted]), if_pos hstopped, if_neg hnamed]
    · exact absurd hnameless hnamed
  · have hnot : ¬block.stopped = true := fun hstopped => hstarted (h.stopped block hblock hstopped)
    rw [if_pos (Bool.not_eq_true _ ▸ hstarted), if_pos (hsettled.resolve_left hnot)]

theorem StreamState.Inv.close_wellFormed_iff (h : s.Inv) (response : Option Response) :
    WellFormed lone (s.close response).events ↔ s.NamedFirst := by
  obtain ⟨hinv, hkeeps, hsettled⟩ := StreamState.Inv.stopBlocks s.blocks.length h le_rfl
  unfold StreamState.close
  dsimp only
  generalize (List.range s.blocks.length).foldl StreamState.stopBlock s = stopped
    at hinv hkeeps hsettled ⊢
  have hready := hinv.ensureMessageStart
  have hsent := @ensureMessageStart_sent stopped
  have hblocks := @ensureMessageStart_blocks stopped
  generalize stopped.ensureMessageStart = ready at hready hsent hblocks ⊢
  have hslots : ready.blocks.map (·.slot) =
      ready.blocks.map fun block => if block.Nameless then .unused else .closed := by
    refine List.map_congr_left fun block hblock => ?_
    obtain ⟨i, hi⟩ := List.mem_iff_getElem?.mp hblock
    rw [hblocks] at hi
    have hlt : i < s.blocks.length := by
      rw [← hkeeps.length]
      exact (List.getElem?_eq_some_iff.mp hi).1
    exact hready.slot_settled hblock (hsettled i hlt block hi)
  have hclosed : ∀ kind, .opened kind ∉ ready.blocks.map (·.slot) := by
    intro kind hmem
    rw [hslots] at hmem
    obtain ⟨block, -, hblock⟩ := List.mem_map.mp hmem
    split at hblock <;> cases hblock
  refine ((hready.tells hsent).finish_iff hclosed _).trans ?_
  rw [hslots, List.pairwise_map]
  have hiff : ∀ x y : StreamBlock,
      ((if x.Nameless then Slot.unused else Slot.closed) = (Slot.unused : Slot ContentKind) →
        (if y.Nameless then Slot.unused else Slot.closed) = (Slot.unused : Slot ContentKind)) ↔
      (x.Nameless → y.Nameless) := by
    intro x y
    by_cases hx : x.Nameless
    · by_cases hy : y.Nameless
      · simp [hx, hy]
      · simp [hx, hy]
    · simp [hx]
  unfold StreamState.NamedFirst
  simp only [hiff]
  rw [hblocks, List.pairwise_iff_getElem, List.pairwise_iff_getElem]
  have hsame : ∀ i (hi : i < stopped.blocks.length) (hi' : i < s.blocks.length),
      (stopped.blocks[i].Nameless ↔ s.blocks[i].Nameless) := fun i hi hi' =>
    hkeeps.nameless i _ _ (List.getElem?_eq_getElem hi') (List.getElem?_eq_getElem hi)
  have hlength := hkeeps.length
  constructor
  · intro hall i j hi hj hlt hnameless
    have hfirst := (hsame i (by omega) hi).mpr hnameless
    exact (hsame j (by omega) hj).mp (hall i j (by omega) (by omega) hlt hfirst)
  · intro hall i j hi hj hlt hnameless
    have hfirst := (hsame i hi (by omega)).mp hnameless
    exact (hsame j hj (by omega)).mpr (hall i j (by omega) (by omega) hlt hfirst)

end End

/-! ### Calls -/

section Calls

variable {codec : Codec} {s : StreamState} {event : Event}

theorem Sound.settle {result : Except Failure StreamState} {t : StreamState}
    (h : Sound t result) (hevents : t.events = s.events) : (s.settle result).Inv := by
  cases result with
  | ok u => exact h.ok u rfl
  | error failure =>
    obtain ⟨hinv, hsame⟩ := h.error failure rfl
    show StreamState.Inv { failure.left with events := s.events }
    rw [← hevents, ← hsame]
    exact hinv

def Terminal (event : Event) : Prop :=
  event.type = .completed ∨ event.type = .done ∨ event.type = .incomplete

instance (event : Event) : Decidable (Terminal event) := instDecidableOr

/--
The blocks that are to be stopped have their names, but for the last ones; where an item of the
response is of another kind than its block, no events have been made before it.
-/
def EndsWell (codec : Codec) (s : StreamState) (response : Option Response) : Prop :=
  match s.applySnapshot codec response with
  | .ok t => t.NamedFirst
  | .error failure => failure.left.events = s.events

instance (s : StreamState) (response : Option Response) : Decidable (EndsWell codec s response) := by
  unfold EndsWell
  cases s.applySnapshot codec response with
  | ok t => exact inferInstanceAs (Decidable t.NamedFirst)
  | error failure => exact inferInstanceAs (Decidable (failure.left.events = s.events))

theorem StreamState.Inv.handle (h : s.Inv) (codec : Codec) (hother : ¬Terminal event) :
    Sound (s.applyResponseMetadata event.response) (s.handle codec event) := by
  have hready := (h.applyResponseMetadata event.response).1
  unfold Terminal at hother
  unfold StreamState.handle
  dsimp only
  generalize s.applyResponseMetadata event.response = ready at hready ⊢
  cases htype : event.type with
  | created => exact .of_inv hready.ensureMessageStart
  | completed => exact absurd (.inl htype) hother
  | done => exact absurd (.inr (.inl htype)) hother
  | incomplete => exact absurd (.inr (.inr htype)) hother
  | failed => exact .of_error hready rfl
  | error => exact .of_error hready rfl
  | other text => exact .of_inv hready
  | outputItemAdded => exact hready.applyOutputItem codec event false
  | outputItemDone => exact hready.applyOutputItem codec event true
  | outputTextDelta =>
    exact hready.ensureBlock event .text fun t position ht _ =>
      .of_inv (ht.appendDelta position event.delta)
  | outputTextDone =>
    refine hready.ensureBlock event .text fun t position ht _ => ?_
    dsimp only
    split
    · exact .of_inv (ht.mergeFinalValue position _)
    · exact .of_inv ht
  | outputTextAnnotationAdded =>
    refine hready.ensureBlock event .text fun t position ht hevents => ?_
    dsimp only
    split
    · exact .of_inv (ht.appendAnnotations codec position _ false)
    · exact .of_error ht hevents
  | functionArgsDelta =>
    exact hready.ensureBlock event .toolUse fun t position ht _ =>
      .of_inv (ht.appendDelta position event.delta)
  | functionArgsDone =>
    refine hready.ensureBlock event .toolUse fun t position ht _ => ?_
    dsimp only
    split
    · exact .of_inv (ht.mergeFinalValue position _)
    · exact .of_inv ht
  | customToolInputDelta =>
    exact hready.ensureBlock event .toolUse fun t position ht _ =>
      .of_inv (ht.appendDelta position event.delta)
  | customToolInputDone =>
    refine hready.ensureBlock event .toolUse fun t position ht _ => ?_
    dsimp only
    split
    · exact .of_inv (ht.mergeFinalValue position _)
    · exact .of_inv ht
  | reasoningSummaryDelta =>
    exact hready.ensureBlock event .thinking fun t position ht _ =>
      .of_inv (ht.reasoningDelta position event.delta)
  | reasoningSummaryDone =>
    exact hready.ensureBlock event .thinking fun t position ht _ =>
      .of_inv (ht.reasoningDone position event.text)
  | reasoningTextDelta =>
    exact hready.ensureBlock event .thinking fun t position ht _ =>
      .of_inv (ht.reasoningDelta position event.delta)
  | reasoningTextDone =>
    exact hready.ensureBlock event .thinking fun t position ht _ =>
      .of_inv (ht.reasoningDone position event.text)

/-- Before the end the invariant holds, after it the whole stream is there. -/
def StreamState.Kept (s : StreamState) : Prop :=
  s.Inv ∨ s.done = true ∧ WellFormed lone s.events

theorem StreamState.Inv.finish (h : s.Inv) {response : Option Response} {t : StreamState}
    (hends : EndsWell codec s response) (hevents : s.events = t.events) :
    (t.settle (s.finish codec response)).Kept := by
  obtain ⟨hok, herror⟩ := h.applySnapshot codec response
  unfold EndsWell at hends
  unfold StreamState.finish
  rw [if_neg (by rw [h.unfinished]; simp)]
  cases hsnapshot : s.applySnapshot codec response with
  | ok u =>
    rw [hsnapshot] at hends
    exact .inr ⟨rfl, ((hok u hsnapshot).close_wellFormed_iff response).mpr hends⟩
  | error failure =>
    rw [hsnapshot] at hends
    have hsound : Sound s (.error failure : Except Failure StreamState) :=
      .of_error (herror failure hsnapshot) hends
    exact .inl (hsound.settle hevents)

/-- What an event must be in the state that it finds. -/
def Fits (codec : Codec) (s : StreamState) (event : Event) : Prop :=
  s.done = false → Terminal event →
    EndsWell codec (s.applyResponseMetadata event.response) event.response

instance (s : StreamState) (event : Event) : Decidable (Fits codec s event) :=
  inferInstanceAs (Decidable (_ → _))

theorem StreamState.Kept.convertChunk (h : s.Kept) (hfits : Fits codec s event) :
    (s.convertChunk codec event).Kept := by
  unfold StreamState.convertChunk
  obtain hinv | ⟨hdone, hwhole⟩ := h
  · rw [if_neg (by rw [hinv.unfinished]; simp)]
    obtain ⟨hready, hevents⟩ := hinv.applyResponseMetadata event.response
    by_cases hterminal : Terminal event
    · have hends := hfits hinv.unfinished hterminal
      have hhandle : s.handle codec event =
          (s.applyResponseMetadata event.response).finish codec event.response := by
        unfold StreamState.handle
        obtain htype | htype | htype := hterminal
        · rw [htype]
        · rw [htype]
        · rw [htype]
      rw [hhandle]
      exact hready.finish hends hevents
    · exact .inl ((hinv.handle codec hterminal).settle hevents)
  · rw [if_pos hdone]
    exact .inr ⟨hdone, hwhole⟩

end Calls

/-! ### The stream -/

/-- What the events of a stream must be, and the end of one that has none. -/
def FitsStream (codec : Codec) (id model : String) (events : List Event) : Prop :=
  Machine.Meets (fun s event => some (StreamState.convertChunk codec s event)) (Fits codec)
      (.new id model) events ∧
    ((events.foldl (StreamState.convertChunk codec) (.new id model)).done = false →
      (events.foldl (StreamState.convertChunk codec) (.new id model)).NamedFirst)

instance (codec : Codec) (id model : String) (events : List Event) :
    Decidable (FitsStream codec id model events) :=
  instDecidableAnd

theorem inv_new (id model : String) : (StreamState.new id model).Inv where
  unfinished := rfl
  tells := fun hsent => Bool.noConfusion hsent
  silent := fun _ => ⟨rfl, fun block hblock => absurd hblock List.not_mem_nil⟩
  index := fun position block hblock => by cases hblock
  next := rfl
  stopped := fun block hblock => absurd hblock List.not_mem_nil
  named := fun block hblock => absurd hblock List.not_mem_nil

/-- Of a stream whose ends find the blocks named comes a well-formed Claude stream. -/
theorem convert_wellFormed (codec : Codec) (id model : String) (events : List Event)
    (hfits : FitsStream codec id model events) :
    WellFormed lone (convert codec id model events) := by
  obtain ⟨hmeets, hend⟩ := hfits
  have hstep : ∀ (s : StreamState) (event : Event) (t : StreamState), s.Kept →
      Fits codec s event → some (s.convertChunk codec event) = some t → t.Kept := by
    intro s event t hkept hfits ht
    cases ht
    exact hkept.convertChunk hfits
  have hkept := Machine.run_invariant StreamState.Kept hstep events (.new id model) _
    (.inl (inv_new id model)) hmeets (Machine.run_some (StreamState.convertChunk codec) events _)
  unfold convert StreamState.finalize
  generalize events.foldl (StreamState.convertChunk codec) (.new id model) = last at hend hkept ⊢
  obtain hinv | ⟨hdone, hwhole⟩ := hkept
  · have hclose : last.settle (last.finish codec none) = last.close none := by
      unfold StreamState.finish
      rw [if_neg (by rw [hinv.unfinished]; simp)]
      rfl
    rw [if_neg (by rw [hinv.unfinished]; simp), hclose]
    exact (hinv.close_wellFormed_iff none).mpr (hend hinv.unfinished)
  · rw [if_pos hdone]
    exact hwhole

def plainCodec : Codec := ⟨fun _ => true, fun annotations _ => annotations⟩

/-- A message, and a tool of which the arguments are known before its name. -/
def namedEvents : List Event := [
  { type := .outputTextDelta, outputIndex := some 0, delta := "hi" },
  { type := .functionArgsDelta, outputIndex := some 1, delta := "\x7b\x7d" },
  { type := .outputItemDone, outputIndex := some 1,
    item := some { type := .functionCall, callId := "c", name := "f", arguments := "\x7b\x7d" } },
  { type := .completed, response := some {
      output := [
        { type := .message, role := "assistant", content := [⟨true, "hi!", []⟩] },
        { type := .functionCall, callId := "c", name := "f", arguments := "\x7b\x7d" }] } }]

theorem namedEvents_wellFormed : WellFormed lone (convert plainCodec "r" "m" namedEvents) :=
  convert_wellFormed plainCodec "r" "m" namedEvents (by decide +kernel)

/-- A tool that never gets a name has the first index, and the text the second. -/
theorem nameless_first_not_wellFormed : ¬WellFormed lone (convert plainCodec "r" "m" [
    { type := .functionArgsDelta, outputIndex := some 0, delta := "x" },
    { type := .outputTextDelta, outputIndex := some 1, delta := "hi" },
    { type := .completed }]) := by
  rintro ⟨r, hrun, -⟩
  have hnone : Machine.run (Reader.read lone) .start (convert plainCodec "r" "m" [
      { type := .functionArgsDelta, outputIndex := some 0, delta := "x" },
      { type := .outputTextDelta, outputIndex := some 1, delta := "hi" },
      { type := .completed }]) = none := by
    rfl
  rw [hnone] at hrun
  cases hrun

end JulongApi.ResponsesClaude
