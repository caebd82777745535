/-
The events of a Claude stream, and what a client makes of them.

The client keeps the blocks it has been told of and refuses an event that does not fit: one before
`message_start`, one about a block that is not open or of another kind, a `message_delta` while a
block is open or an index below the last one has not been used, anything after `message_stop`.
-/
import JulongApi.Lib.BlockStream
import JulongApi.Lib.Machine

namespace JulongApi.ClaudeStream

open BlockStream

inductive ContentKind where
  | text
  | thinking
  | toolUse
deriving DecidableEq, Repr

/-- The `content_block` of a start; text and thinking are empty. -/
inductive ContentBlock where
  | text
  | thinking
  | toolUse (id name : String)
deriving DecidableEq, Repr

inductive ContentDelta where
  /-- `text_delta` -/
  | text (text : String)
  /-- `thinking_delta` -/
  | thinking (thinking : String)
  /-- `input_json_delta` -/
  | inputJson (partialJson : String)
  /-- `citations_delta` -/
  | citations (citation : String)
deriving DecidableEq, Repr

/-- `dto.ClaudeResponse`, without the usage. -/
inductive ClaudeEvent where
  | messageStart (id model : String)
  | contentBlockStart (index : Nat) (contentBlock : ContentBlock)
  | contentBlockDelta (index : Nat) (delta : ContentDelta)
  | contentBlockStop (index : Nat)
  | messageDelta (stopReason : String)
  | messageStop
deriving DecidableEq, Repr

def ContentBlock.kind : ContentBlock → ContentKind
  | .text => .text
  | .thinking => .thinking
  | .toolUse _ _ => .toolUse

/-- The kind of the blocks that grow by the delta. -/
def ContentDelta.kind : ContentDelta → ContentKind
  | .text _ | .citations _ => .text
  | .thinking _ => .thinking
  | .inputJson _ => .toolUse

/-- What an event says of a block. -/
def ClaudeEvent.act : ClaudeEvent → Option (Act ContentKind)
  | .contentBlockStart index contentBlock => some (.start index contentBlock.kind)
  | .contentBlockDelta index delta => some (.delta index delta.kind)
  | .contentBlockStop index => some (.stop index)
  | .messageStart _ _ | .messageDelta _ | .messageStop => none

/-! ### The client -/

structure Reader where
  started : Bool
  blocks : Blocks ContentKind
  ended : Bool
  stopped : Bool

def Reader.start : Reader := ⟨false, .none, false, false⟩

/-- `lone` are the kinds of which at most one block is open at a time. -/
def Reader.read (lone : ContentKind → Bool) (r : Reader) (e : ClaudeEvent) : Option Reader :=
  if r.stopped then none
  else
    match e with
    | .messageStart _ _ => if r.started then none else some { r with started := true }
    | .messageDelta _ =>
      if r.started ∧ r.ended = false ∧ Whole r.blocks then some { r with ended := true }
      else none
    | .messageStop => if r.ended then some { r with stopped := true } else none
    | .contentBlockStart _ _ | .contentBlockDelta _ _ | .contentBlockStop _ =>
      if r.started ∧ r.ended = false then
        (e.act.bind (apply lone r.blocks)).map fun blocks => { r with blocks := blocks }
      else none

def WellFormed (lone : ContentKind → Bool) (events : List ClaudeEvent) : Prop :=
  ∃ r, Machine.run (Reader.read lone) .start events = some r ∧ r.stopped = true

/-! ### What is read -/

section Reading

variable {lone : ContentKind → Bool} {r : Reader} {events more : List ClaudeEvent}
  {f g h : Nat → Slot ContentKind} {index : Nat}

/-- A client in the middle of a message. -/
structure Reader.Open (r : Reader) : Prop where
  started : r.started = true
  ended : r.ended = false
  stopped : r.stopped = false

/-- After the events the client is in the middle of a message and has the blocks of `f`. -/
def Tells (lone : ContentKind → Bool) (events : List ClaudeEvent) (f : Nat → Slot ContentKind) :
    Prop :=
  ∃ r, Machine.run (Reader.read lone) .start events = some r ∧ r.Open ∧ Holds r.blocks f

/-- The events take the blocks from `f` to `g`. -/
def Moves (lone : ContentKind → Bool) (events : List ClaudeEvent) (f g : Nat → Slot ContentKind) :
    Prop :=
  ∀ r : Reader, r.Open → Holds r.blocks f →
    ∃ r', Machine.run (Reader.read lone) r events = some r' ∧ r'.Open ∧ Holds r'.blocks g

theorem Moves.same (hsame : ∀ i, g i = f i) : Moves lone [] f g :=
  fun r hopen hholds => ⟨r, rfl, hopen, hholds.congr hsame⟩

theorem Moves.trans (hfirst : Moves lone events f g) (hsecond : Moves lone more g h) :
    Moves lone (events ++ more) f h := by
  intro r hopen hholds
  obtain ⟨mid, hrun, hmidOpen, hmid⟩ := hfirst r hopen hholds
  obtain ⟨last, hrun', hlastOpen, hlast⟩ := hsecond mid hmidOpen hmid
  exact ⟨last, (Machine.run_append hrun).trans hrun', hlastOpen, hlast⟩

theorem Reader.Open.act (hopen : r.Open) {e : ClaudeEvent} {a : Act ContentKind}
    (he : e.act = some a) {blocks : Blocks ContentKind}
    (happly : apply lone r.blocks a = some blocks) :
    Machine.run (Reader.read lone) r [e] = some { r with blocks := blocks } := by
  have hread : r.read lone e = some { r with blocks := blocks } := by
    have hblocks : (e.act.bind (apply lone r.blocks)).map
        (fun blocks => { r with blocks := blocks }) = some { r with blocks := blocks } := by
      rw [he, Option.bind_some, happly, Option.map_some]
    unfold Reader.read
    rw [if_neg (by rw [hopen.stopped]; simp)]
    cases e with
    | messageStart id model => cases he
    | messageDelta stopReason => cases he
    | messageStop => cases he
    | contentBlockStart index contentBlock => exact (if_pos ⟨hopen.1, hopen.2⟩).trans hblocks
    | contentBlockDelta index delta => exact (if_pos ⟨hopen.1, hopen.2⟩).trans hblocks
    | contentBlockStop index => exact (if_pos ⟨hopen.1, hopen.2⟩).trans hblocks
  rw [Machine.run, hread]
  rfl

theorem Reader.Open.withBlocks (hopen : r.Open) (blocks : Blocks ContentKind) :
    { r with blocks := blocks }.Open :=
  ⟨hopen.started, hopen.ended, hopen.stopped⟩

theorem Moves.start {contentBlock : ContentBlock} (hunused : f index = .unused)
    (halone : lone contentBlock.kind = true → ∀ i other, f i = .opened other → lone other = false)
    (hself : g index = .opened contentBlock.kind) (hothers : ∀ i, i ≠ index → g i = f i) :
    Moves lone [.contentBlockStart index contentBlock] f g := by
  intro r hopen hholds
  obtain ⟨blocks, happly, hblocks⟩ := hholds.start hunused halone hself hothers
  exact ⟨_, hopen.act rfl happly, hopen.withBlocks blocks, hblocks⟩

theorem Moves.delta {delta : ContentDelta} (hopened : f index = .opened delta.kind) :
    Moves lone [.contentBlockDelta index delta] f f := by
  intro r hopen hholds
  have happly : apply lone r.blocks (.delta index delta.kind) = some r.blocks :=
    hholds.delta hopened
  exact ⟨_, hopen.act rfl happly, hopen.withBlocks r.blocks, hholds⟩

theorem Moves.stop {kind : ContentKind} (hopened : f index = .opened kind)
    (hself : g index = .closed) (hothers : ∀ i, i ≠ index → g i = f i) :
    Moves lone [.contentBlockStop index] f g := by
  intro r hopen hholds
  have hstop : ∃ blocks, apply lone r.blocks (.stop index) = some blocks ∧ Holds blocks g :=
    hholds.stop hopened hself hothers
  obtain ⟨blocks, happly, hblocks⟩ := hstop
  exact ⟨_, hopen.act rfl happly, hopen.withBlocks blocks, hblocks⟩

theorem Tells.moves (hf : Tells lone events f) (hmore : Moves lone more f g) :
    Tells lone (events ++ more) g := by
  obtain ⟨r, hrun, hopen, hholds⟩ := hf
  obtain ⟨r', hrun', hopen', hholds'⟩ := hmore r hopen hholds
  exact ⟨r', (Machine.run_append hrun).trans hrun', hopen', hholds'⟩

theorem Tells.congr (hf : Tells lone events f) (hsame : ∀ i, g i = f i) : Tells lone events g := by
  obtain ⟨r, hrun, hopen, hholds⟩ := hf
  exact ⟨r, hrun, hopen, hholds.congr hsame⟩

theorem tells_messageStart (id model : String) :
    Tells lone [.messageStart id model] fun _ => .unused :=
  ⟨{ Reader.start with started := true }, rfl, ⟨rfl, rfl, rfl⟩, fun _ => rfl⟩

/-- The end of a message fits if the blocks are whole. -/
theorem Tells.finish_iff {l : List (Slot ContentKind)} (hl : Tells lone events (listed l))
    (hclosed : ∀ kind, .opened kind ∉ l) (stopReason : String) :
    WellFormed lone (events ++ [.messageDelta stopReason, .messageStop]) ↔
      l.Pairwise fun x y => x = .unused → y = .unused := by
  obtain ⟨r, hrun, hopen, hholds⟩ := hl
  rw [← hholds.whole_listed_iff hclosed]
  unfold WellFormed
  rw [Machine.run_append hrun]
  have hread : r.read lone (.messageDelta stopReason) =
      if Whole r.blocks then some { r with ended := true } else none := by
    unfold Reader.read
    rw [if_neg (by rw [hopen.stopped]; simp)]
    simp only [hopen.started, hopen.ended, true_and]
  by_cases hwhole : Whole r.blocks
  · rw [if_pos hwhole] at hread
    have hstop : { r with ended := true }.read lone .messageStop =
        some { r with ended := true, stopped := true } := by
      unfold Reader.read
      rw [if_neg (by rw [hopen.stopped]; simp)]
      exact if_pos rfl
    have hend : Machine.run (Reader.read lone) r [.messageDelta stopReason, .messageStop] =
        some { r with ended := true, stopped := true } := by
      rw [Machine.run, hread]
      dsimp only
      rw [Machine.run, hstop]
      rfl
    exact ⟨fun _ => hwhole, fun _ => ⟨_, hend, rfl⟩⟩
  · rw [if_neg hwhole] at hread
    refine ⟨fun h => ?_, fun h => absurd h hwhole⟩
    obtain ⟨last, hlast, -⟩ := h
    rw [Machine.run, hread] at hlast
    cases hlast

end Reading

end JulongApi.ClaudeStream
