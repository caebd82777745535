/-
Nothing of the content is lost on the way into the Claude stream, if nothing comes after the end,
no chunk mixes tool calls with text, and the tool calls find their tools.

`Holding` says where the arguments of each index are: in the block of a tool that is started, with
a tool that waits for its name, or in a block behind the converter.  Every part of a chunk keeps it
(`holding_part`), and at the end all is in the blocks.
-/
import JulongApi.ChatClaudeContent
import JulongApi.Proofs.ChatClaude

namespace JulongApi.ChatClaude

open ClaudeStream

open ResponsesStream (ToolCall Choice)

/-! ### Texts of events -/

variable {base : Nat}

section Texts

variable {events more : List ClaudeEvent} {block : Nat} {tool : StreamToolCall} {codec : Codec}

@[simp] theorem textOf_append : textOf (events ++ more) = textOf events ++ textOf more := by
  unfold textOf
  rw [List.map_append, String.join_append]

@[simp] theorem thinkingOf_append :
    thinkingOf (events ++ more) = thinkingOf events ++ thinkingOf more := by
  unfold thinkingOf
  rw [List.map_append, String.join_append]

@[simp] theorem inputOf_append :
    inputOf (events ++ more) block = inputOf events block ++ inputOf more block := by
  unfold inputOf
  rw [List.map_append, String.join_append]

@[simp] theorem inputOf_nil : inputOf [] block = "" := rfl

@[simp] theorem inputOf_cons {e : ClaudeEvent} :
    inputOf (e :: more) block = eventInput block e ++ inputOf more block := by
  unfold inputOf
  rw [List.map_cons, String.join_cons]

def Silent (events : List ClaudeEvent) : Prop :=
  ∀ e ∈ events, eventText e = "" ∧ eventThinking e = ""

theorem join_eq_empty {α : Type} {f : α → String} : ∀ {l : List α}, (∀ a ∈ l, f a = "") →
    String.join (l.map f) = "" := by
  intro l
  induction l with
  | nil => exact fun _ => rfl
  | cons a rest ih =>
    intro h
    rw [List.map_cons, String.join_cons, h a (by simp),
      ih fun b hb => h b (List.mem_cons_of_mem _ hb)]
    rfl

theorem Silent.textOf (h : Silent events) : textOf events = "" := join_eq_empty fun e he => (h e he).1

theorem Silent.thinkingOf (h : Silent events) : thinkingOf events = "" :=
  join_eq_empty fun e he => (h e he).2

theorem Silent.append (h : Silent events) (hmore : Silent more) : Silent (events ++ more) := by
  intro e he
  obtain he | he := List.mem_append.mp he
  · exact h e he
  · exact hmore e he

theorem silent_startEvents : Silent tool.startEvents := by
  intro e he
  unfold StreamToolCall.startEvents at he
  obtain rfl | he := List.mem_cons.mp he
  · exact ⟨rfl, rfl⟩
  · split at he
    · cases he
    · obtain rfl := List.mem_singleton.mp he
      exact ⟨rfl, rfl⟩

theorem silent_pendingEvents : Silent (tool.pendingEvents codec) := by
  unfold StreamToolCall.pendingEvents
  split
  · exact silent_startEvents
  · exact fun e he => by cases he

theorem inputOf_startEvents :
    inputOf tool.startEvents block =
      if tool.blockIndex = block then tool.pendingArguments else "" := by
  unfold StreamToolCall.startEvents
  by_cases hpending : tool.pendingArguments = ""
  · rw [if_pos hpending, hpending]
    simp [eventInput]
  · rw [if_neg hpending]
    simp [eventInput]

theorem ensureID_blockIndex : (tool.ensureID codec).blockIndex = tool.blockIndex := by
  unfold StreamToolCall.ensureID
  split <;> rfl

theorem ensureID_pendingArguments :
    (tool.ensureID codec).pendingArguments = tool.pendingArguments := by
  unfold StreamToolCall.ensureID
  split <;> rfl

theorem ensureID_name : (tool.ensureID codec).name = tool.name := by
  unfold StreamToolCall.ensureID
  split <;> rfl

theorem inputOf_pendingEvents :
    inputOf (tool.pendingEvents codec) block =
      if tool.pending ∧ tool.blockIndex = block then tool.pendingArguments else "" := by
  unfold StreamToolCall.pendingEvents
  by_cases hpending : tool.pending = true
  · rw [if_pos hpending, inputOf_startEvents, ensureID_blockIndex, ensureID_pendingArguments]
    simp [hpending]
  · rw [if_neg hpending]
    simp [hpending]

/-- The tools stand in their blocks, one after the other. -/
def InBlocks (base : Nat) (tools : List StreamToolCall) : Prop :=
  ∀ position tool, tools[position]? = some tool → tool.blockIndex = base + position

theorem InBlocks.tail {tools : List StreamToolCall} (h : InBlocks base (tool :: tools)) :
    InBlocks (base + 1) tools := by
  intro position other hother
  rw [h (position + 1) other hother]
  omega

theorem inputOf_pending_outside : ∀ {tools : List StreamToolCall},
    (∀ tool ∈ tools, tool.blockIndex ≠ block) →
      inputOf (tools.flatMap (StreamToolCall.pendingEvents codec)) block = "" := by
  intro tools
  induction tools with
  | nil => exact fun _ => rfl
  | cons tool rest ih =>
    intro h
    have hne : ¬(tool.pending = true ∧ tool.blockIndex = block) := fun hand =>
      h tool (by simp) hand.2
    rw [List.flatMap_cons, inputOf_append, inputOf_pendingEvents, if_neg hne,
      ih fun other hother => h other (List.mem_cons_of_mem _ hother)]
    rfl

theorem inputOf_pending_at : ∀ {tools : List StreamToolCall} {base position : Nat},
    InBlocks base tools → tools[position]? = some tool →
      inputOf (tools.flatMap (StreamToolCall.pendingEvents codec)) (base + position) =
        if tool.pending then tool.pendingArguments else "" := by
  intro tools
  induction tools with
  | nil =>
    intro base position _ htool
    cases htool
  | cons first rest ih =>
    intro base position hblocks htool
    rw [List.flatMap_cons, inputOf_append, inputOf_pendingEvents]
    have hfirst : first.blockIndex = base := hblocks 0 first rfl
    cases position with
    | zero =>
      obtain rfl : first = tool := Option.some.inj htool
      have hrest : ∀ other ∈ rest, other.blockIndex ≠ base + 0 := by
        intro other hother
        obtain ⟨i, hi⟩ := List.mem_iff_getElem?.mp hother
        rw [hblocks.tail i other hi]
        omega
      rw [inputOf_pending_outside hrest, String.append_empty]
      simp [hfirst]
    | succ position =>
      have hne : ¬(first.pending = true ∧ first.blockIndex = base + (position + 1)) := by
        rw [hfirst]
        omega
      have hthen := ih hblocks.tail htool
      rw [if_neg hne, String.empty_append, ← hthen]
      congr 1
      omega

variable {indexes : List Nat}

theorem inputOf_stops : inputOf (indexes.map ClaudeEvent.contentBlockStop) block = "" := by
  induction indexes with
  | nil => rfl
  | cons index rest ih =>
    rw [List.map_cons, inputOf_cons, ih]
    rfl

theorem stopOpenBlocks_eq (s : ConvertInfo) :
    ∃ indexes : List Nat, s.stopOpenBlocks = indexes.map ClaudeEvent.contentBlockStop := by
  unfold ConvertInfo.stopOpenBlocks
  cases s.lastMessagesType with
  | none => exact ⟨[], rfl⟩
  | text => exact ⟨[s.index], rfl⟩
  | thinking => exact ⟨[s.index], rfl⟩
  | tools =>
    dsimp only
    by_cases hempty : s.toolCalls = []
    · rw [if_pos hempty]
      exact ⟨(List.range (s.toolCallMaxIndexOffset + 1)).map fun offset =>
        s.toolCallBaseIndex + offset, by rw [List.map_map]; rfl⟩
    · rw [if_neg hempty]
      exact ⟨(s.toolCalls.filter (·.started)).map (·.blockIndex), by rw [List.map_map]; rfl⟩

theorem silent_stops : Silent (indexes.map ClaudeEvent.contentBlockStop) := by
  intro e he
  obtain ⟨index, -, rfl⟩ := List.mem_map.mp he
  exact ⟨rfl, rfl⟩

end Texts

/-! ### What has been said of an index -/

section Said

variable {events more : List ClaudeEvent} {calls : List (Int × ToolCall)} {index other : Int}
  {call : ToolCall} {block : Nat}

theorem nameOf_append : nameOf index (calls ++ [(other, call)]) =
    if other = index ∧ nameOf index calls = "" then trimSpace call.name
    else nameOf index calls := by
  unfold nameOf
  rw [List.foldl_append]
  rfl

theorem argumentsOf_append : argumentsOf index (calls ++ [(other, call)]) =
    argumentsOf index calls ++ if other = index then call.arguments else "" := by
  unfold argumentsOf
  rw [List.map_append, String.join_append, List.map_cons, List.map_nil, String.join_cons,
    String.join_nil, String.append_empty]

theorem seen_append : Seen index (calls ++ [(other, call)]) ↔ Seen index calls ∨ other = index := by
  unfold Seen
  simp only [List.mem_append, List.mem_singleton, or_and_right, exists_or, exists_eq_left]

theorem said_of_not_seen : ∀ {calls : List (Int × ToolCall)}, ¬Seen index calls →
    nameOf index calls = "" ∧ argumentsOf index calls = "" := by
  intro calls
  induction calls using List.reverseRecOn with
  | nil => exact fun _ => ⟨rfl, rfl⟩
  | append_singleton calls last ih =>
    intro h
    obtain ⟨other, call⟩ := last
    rw [seen_append, not_or] at h
    obtain ⟨hname, harguments⟩ := ih h.1
    rw [nameOf_append, argumentsOf_append, if_neg fun hand => h.2 hand.1, if_neg h.2, hname,
      harguments]
    exact ⟨rfl, rfl⟩

theorem said_append_ne (h : other ≠ index) :
    nameOf index (calls ++ [(other, call)]) = nameOf index calls ∧
      argumentsOf index (calls ++ [(other, call)]) = argumentsOf index calls := by
  rw [nameOf_append, argumentsOf_append, if_neg fun hand => h hand.1, if_neg h,
    String.append_empty]
  exact ⟨rfl, rfl⟩

theorem Settled.append (h : Settled events calls index block) (hmore : inputOf more block = "") :
    Settled (events ++ more) calls index block := by
  intro hname
  obtain ⟨⟨id, hstart⟩, hinput⟩ := h hname
  refine ⟨⟨id, List.mem_append_left _ hstart⟩, ?_⟩
  rw [inputOf_append, hmore, String.append_empty, hinput]

theorem Settled.later (h : Settled events calls index block) (hne : other ≠ index) :
    Settled events (calls ++ [(other, call)]) index block := by
  unfold Settled
  obtain ⟨hname, harguments⟩ := @said_append_ne calls index other call hne
  rw [hname, harguments]
  exact h

/-- A tool of the row has what has been said of its index: in its block, or waiting. -/
structure Kept (events : List ClaudeEvent) (calls : List (Int × ToolCall)) (index : Int)
    (tool : StreamToolCall) : Prop where
  name : tool.name = nameOf index calls
  started : tool.started = true → tool.name ≠ "" ∧
    (∃ id, .contentBlockStart tool.blockIndex (.toolUse id tool.name) ∈ events) ∧
      inputOf events tool.blockIndex = argumentsOf index calls
  waiting : tool.started = false →
    inputOf events tool.blockIndex = "" ∧ tool.pendingArguments = argumentsOf index calls

variable {tool : StreamToolCall}

theorem Kept.append (h : Kept events calls index tool)
    (hmore : inputOf more tool.blockIndex = "") : Kept (events ++ more) calls index tool where
  name := h.name
  started := by
    intro hstarted
    obtain ⟨hname, ⟨id, hstart⟩, hinput⟩ := h.started hstarted
    refine ⟨hname, ⟨id, List.mem_append_left _ hstart⟩, ?_⟩
    rw [inputOf_append, hmore, String.append_empty, hinput]
  waiting := by
    intro hwaiting
    rw [inputOf_append, hmore, String.append_empty]
    exact h.waiting hwaiting

theorem Kept.later (h : Kept events calls index tool) (hne : other ≠ index) :
    Kept events (calls ++ [(other, call)]) index tool := by
  obtain ⟨hname, harguments⟩ := @said_append_ne calls index other call hne
  exact {
    name := h.name.trans hname.symm
    started := fun hstarted => harguments ▸ h.started hstarted
    waiting := fun hwaiting => harguments ▸ h.waiting hwaiting }

theorem Kept.advance (h : Kept events calls index tool) :
    Kept (events ++ ((tool.take call).advance call).2) (calls ++ [(index, call)]) index
      ((tool.take call).advance call).1 := by
  have hname : (tool.take call).name = nameOf index (calls ++ [(index, call)]) := by
    rw [nameOf_append, ← h.name]
    show (if tool.name = "" then trimSpace call.name else tool.name) = _
    by_cases hempty : tool.name = ""
    · rw [if_pos hempty, if_pos ⟨rfl, hempty⟩]
    · rw [if_neg hempty, if_neg fun hand => hempty hand.2]
  have harguments : argumentsOf index (calls ++ [(index, call)]) =
      argumentsOf index calls ++ call.arguments := by
    rw [argumentsOf_append, if_pos rfl]
  cases hstarted : tool.started with
  | true =>
    obtain ⟨hnamed, ⟨id, hstart⟩, hinput⟩ := h.started hstarted
    have hsame : (tool.take call).name = tool.name := by
      unfold StreamToolCall.take
      rw [if_neg hnamed]
    have htaken : (tool.take call).started = true := hstarted
    have hready : ¬(tool.take call).ready = true := by
      unfold StreamToolCall.ready
      rw [htaken]
      exact Bool.false_ne_true
    have hmore : inputOf ((tool.take call).advance call).2 tool.blockIndex = call.arguments ∧
        ((tool.take call).advance call).1 = tool.take call := by
      unfold StreamToolCall.advance
      rw [if_neg hready]
      by_cases hempty : call.arguments = ""
      · rw [if_neg fun hand => hand.2 hempty, hempty]
        exact ⟨rfl, rfl⟩
      · rw [if_pos ⟨htaken, hempty⟩]
        refine ⟨?_, rfl⟩
        rw [inputOf_cons, inputOf_nil, String.append_empty]
        exact if_pos rfl
    rw [hmore.2]
    refine { name := hname, started := fun _ => ?_, waiting := fun hwaiting => ?_ }
    · refine ⟨hsame ▸ hnamed, ⟨id, hsame ▸ List.mem_append_left _ hstart⟩, ?_⟩
      show inputOf _ tool.blockIndex = _
      rw [inputOf_append, hmore.1, hinput, harguments]
    · cases htaken.symm.trans hwaiting
  | false =>
    obtain ⟨hinput, hpending⟩ := h.waiting hstarted
    have htaken : (tool.take call).started = false := hstarted
    have hpending' : (tool.take call).pendingArguments =
        argumentsOf index (calls ++ [(index, call)]) := by
      rw [harguments, ← hpending]
      unfold StreamToolCall.take
      rw [hstarted]
      rfl
    unfold StreamToolCall.advance
    by_cases hready : (tool.take call).ready = true
    · rw [if_pos hready]
      have hnamed : (tool.take call).name ≠ "" := by
        unfold StreamToolCall.ready at hready
        simp only [Bool.and_eq_true, bne_iff_ne] at hready
        exact hready.2
      refine { name := hname, started := fun _ => ⟨hnamed, ?_, ?_⟩, waiting := fun hwaiting => ?_ }
      · refine ⟨(tool.take call).id, List.mem_append_right _ ?_⟩
        exact List.mem_cons_self
      · show inputOf _ tool.blockIndex = _
        rw [inputOf_append, hinput, inputOf_startEvents, ← hpending', String.empty_append]
        exact if_pos rfl
      · cases hwaiting
    · rw [if_neg hready, if_neg fun hand => Bool.false_ne_true (htaken.symm.trans hand.1)]
      refine { name := hname, started := fun hs => ?_, waiting := fun _ => ⟨?_, hpending'⟩ }
      · cases htaken.symm.trans hs
      · rw [List.append_nil]
        exact hinput

theorem Kept.settled (h : Kept events calls index tool)
    (hmore : inputOf more tool.blockIndex = if tool.pending then tool.pendingArguments else "")
    (hstart : tool.pending = true → ∃ id,
      .contentBlockStart tool.blockIndex (.toolUse id tool.name) ∈ more) :
    Settled (events ++ more) calls index tool.blockIndex := by
  intro hname
  rw [← h.name] at hname ⊢
  rw [inputOf_append, hmore]
  cases hstarted : tool.started with
  | true =>
    obtain ⟨-, ⟨id, hmem⟩, hinput⟩ := h.started hstarted
    have hpending : ¬tool.pending = true := by
      unfold StreamToolCall.pending
      rw [hstarted]
      exact Bool.false_ne_true
    rw [if_neg hpending, String.append_empty]
    exact ⟨⟨id, List.mem_append_left _ hmem⟩, hinput⟩
  | false =>
    obtain ⟨hinput, hwaiting⟩ := h.waiting hstarted
    have hpending : tool.pending = true := by
      unfold StreamToolCall.pending
      rw [hstarted]
      simp [hname]
    obtain ⟨id, hmem⟩ := hstart hpending
    rw [if_pos hpending, hinput, hwaiting, String.empty_append]
    exact ⟨⟨id, List.mem_append_right _ hmem⟩, rfl⟩

end Said

/-! ### Where the arguments are -/

section Holding

variable {codec : Codec} {s : ConvertInfo} {calls : List (Int × ToolCall)} {block : Int → Nat}
  {events more : List ClaudeEvent} {n : Nat}

/-- All tools are behind the index `n`. -/
structure Behind (n : Nat) (events : List ClaudeEvent) (calls : List (Int × ToolCall))
    (block : Int → Nat) : Prop where
  injective : ∀ i j, Seen i calls → Seen j calls → block i = block j → i = j
  before : ∀ i, Seen i calls → block i < n
  settled : ∀ i, Seen i calls → Settled events calls i (block i)
  fresh : ∀ b, n ≤ b → inputOf events b = ""

/-- The tool of an index in the row. -/
def ConvertInfo.InRow (s : ConvertInfo) (calls : List (Int × ToolCall)) (index : Int)
    (block : Nat) : Prop :=
  ∃ position tool, s.toolCallByIndex.lookup index = some position ∧
    s.toolCalls[position]? = some tool ∧ tool.blockIndex = block ∧
      Kept s.events calls index tool

/-- A row of tools is open, and the tools before it are behind. -/
structure Row (s : ConvertInfo) (calls : List (Int × ToolCall)) (block : Int → Nat) : Prop where
  injective : ∀ i j, Seen i calls → Seen j calls → block i = block j → i = j
  place : ∀ i, Seen i calls → block i < s.toolCallBaseIndex ∧ Settled s.events calls i (block i) ∨
    s.InRow calls i (block i)
  mapped : ∀ i position, s.toolCallByIndex.lookup i = some position →
    Seen i calls ∧ block i = s.toolCallBaseIndex + position
  fresh : ∀ b, s.toolCallBaseIndex + s.toolCalls.length ≤ b → inputOf s.events b = ""
  blocks : InBlocks s.toolCallBaseIndex s.toolCalls

def Holding (s : ConvertInfo) (calls : List (Int × ToolCall)) (block : Int → Nat) : Prop :=
  if s.lastMessagesType = .tools then Row s calls block
  else Behind s.index s.events calls block

theorem Behind.append (h : Behind n events calls block) (hmore : ∀ b, inputOf more b = "")
    {m : Nat} (hle : n ≤ m) : Behind m (events ++ more) calls block where
  injective := h.injective
  before := fun i hi => lt_of_lt_of_le (h.before i hi) hle
  settled := fun i hi => (h.settled i hi).append (hmore _)
  fresh := by
    intro b hb
    rw [inputOf_append, hmore, h.fresh b (hle.trans hb)]
    rfl

variable {tool : StreamToolCall} {t : ConvertInfo}

theorem InBlocks.lt {tools : List StreamToolCall} (h : InBlocks base tools) (hmem : tool ∈ tools) :
    base ≤ tool.blockIndex ∧ tool.blockIndex < base + tools.length := by
  obtain ⟨position, hposition⟩ := List.mem_iff_getElem?.mp hmem
  obtain ⟨hlt, -⟩ := List.getElem?_eq_some_iff.mp hposition
  rw [h position tool hposition]
  omega

theorem Row.leave (h : Row s calls block) (htools : s.lastMessagesType = .tools) :
    Behind (s.toolCallBaseIndex + s.toolCalls.length) (s.appendStopOpenBlocks codec).events calls
      block := by
  obtain ⟨indexes, hstops⟩ := stopOpenBlocks_eq (s.startPendingToolBlocks codec)
  have hevents : (s.appendStopOpenBlocks codec).events = s.events ++
      (s.toolCalls.flatMap (StreamToolCall.pendingEvents codec) ++
        indexes.map ClaudeEvent.contentBlockStop) := by
    have hpending : (s.startPendingToolBlocks codec).events =
        s.events ++ s.toolCalls.flatMap (StreamToolCall.pendingEvents codec) := by
      unfold ConvertInfo.startPendingToolBlocks
      rw [if_pos htools]
      rfl
    rw [← List.append_assoc, ← hpending, ← hstops]
    rfl
  have houtside : ∀ b, (∀ tool ∈ s.toolCalls, tool.blockIndex ≠ b) →
      inputOf (s.toolCalls.flatMap (StreamToolCall.pendingEvents codec) ++
        indexes.map ClaudeEvent.contentBlockStop) b = "" := by
    intro b hb
    rw [inputOf_append, inputOf_pending_outside hb, inputOf_stops]
    rfl
  rw [hevents]
  refine { injective := h.injective, before := ?_, settled := ?_, fresh := ?_ }
  · intro i hi
    obtain ⟨hlt, -⟩ | ⟨position, tool, -, htool, hblock, -⟩ := h.place i hi
    · omega
    · rw [← hblock]
      exact (h.blocks.lt (List.mem_of_getElem? htool)).2
  · intro i hi
    obtain ⟨hlt, hsettled⟩ | ⟨position, tool, -, htool, hblock, hkept⟩ := h.place i hi
    · refine hsettled.append (houtside _ fun tool hmem heq => ?_)
      have hle := (h.blocks.lt hmem).1
      omega
    · rw [← hblock]
      refine hkept.settled ?_ fun hpending => ⟨(tool.ensureID codec).id, ?_⟩
      · have hplace := h.blocks position tool htool
        rw [inputOf_append, inputOf_stops, String.append_empty, hplace]
        exact inputOf_pending_at h.blocks htool
      · refine List.mem_append_left _ (List.mem_flatMap.mpr ⟨tool, List.mem_of_getElem? htool, ?_⟩)
        unfold StreamToolCall.pendingEvents
        rw [if_pos hpending, ← @ensureID_blockIndex tool codec, ← @ensureID_name tool codec]
        exact List.mem_cons_self
  · intro b hb
    rw [inputOf_append, h.fresh b hb, houtside b fun tool hmem heq => ?_]
    · rfl
    · have hlt := (h.blocks.lt hmem).2
      omega

theorem Holding.settled (h : Holding s calls block) :
    ∀ i, Seen i calls → Settled (s.appendStopOpenBlocks codec).events calls i (block i) := by
  intro i hi
  unfold Holding at h
  by_cases htools : s.lastMessagesType = .tools
  · rw [if_pos htools] at h
    exact (h.leave htools).settled i hi
  · rw [if_neg htools] at h
    obtain ⟨indexes, hstops⟩ := stopOpenBlocks_eq s
    have hsame : s.startPendingToolBlocks codec = s := if_neg htools
    have hevents : (s.appendStopOpenBlocks codec).events =
        s.events ++ indexes.map ClaudeEvent.contentBlockStop := by
      unfold ConvertInfo.appendStopOpenBlocks
      rw [hsame, ← hstops]
      rfl
    rw [hevents]
    exact (h.settled i hi).append inputOf_stops

theorem Holding.stopOpenBlocksAndAdvance (h : Holding s calls block) :
    (s.stopOpenBlocksAndAdvance codec).lastMessagesType = .none ∧
      Behind (s.stopOpenBlocksAndAdvance codec).index (s.stopOpenBlocksAndAdvance codec).events calls
        block := by
  unfold Holding at h
  unfold ConvertInfo.stopOpenBlocksAndAdvance
  by_cases hnone : s.lastMessagesType = .none
  · rw [if_pos hnone]
    rw [if_neg (by rw [hnone]; simp)] at h
    exact ⟨hnone, h⟩
  · rw [if_neg hnone]
    have hsame : (s.appendStopOpenBlocks codec).lastMessagesType = s.lastMessagesType := by
      unfold ConvertInfo.appendStopOpenBlocks ConvertInfo.startPendingToolBlocks ConvertInfo.emit
      split <;> rfl
    dsimp only
    rw [hsame]
    by_cases htools : s.lastMessagesType = .tools
    · rw [if_pos htools] at h
      rw [if_pos htools]
      refine ⟨rfl, ?_⟩
      have hindex : (s.appendStopOpenBlocks codec).toolCallBaseIndex +
          (s.appendStopOpenBlocks codec).toolCalls.length =
            s.toolCallBaseIndex + s.toolCalls.length := by
        unfold ConvertInfo.appendStopOpenBlocks ConvertInfo.startPendingToolBlocks
          ConvertInfo.emit
        rw [if_pos htools]
        dsimp only
        rw [List.length_map]
      show Behind ((s.appendStopOpenBlocks codec).toolCallBaseIndex +
        (s.appendStopOpenBlocks codec).toolCalls.length) _ calls block
      rw [hindex]
      exact h.leave htools
    · rw [if_neg htools] at h
      rw [if_neg htools]
      refine ⟨rfl, ?_⟩
      obtain ⟨indexes, hstops⟩ := stopOpenBlocks_eq s
      have hstart : s.startPendingToolBlocks codec = s := if_neg htools
      have hstopped : s.appendStopOpenBlocks codec =
          s.emit (indexes.map ClaudeEvent.contentBlockStop) := by
        unfold ConvertInfo.appendStopOpenBlocks
        rw [hstart, ← hstops]
      rw [hstopped]
      exact h.append (fun _ => inputOf_stops) (Nat.le_succ s.index)

theorem Holding.openTools (h : Holding s calls block) :
    (s.openTools codec).lastMessagesType = .tools ∧ Row (s.openTools codec) calls block := by
  unfold ConvertInfo.openTools
  by_cases htools : s.lastMessagesType = .tools
  · unfold Holding at h
    rw [if_pos htools] at h ⊢
    exact ⟨htools, h⟩
  · rw [if_neg htools]
    obtain ⟨-, hbehind⟩ := @Holding.stopOpenBlocksAndAdvance codec s calls block h
    refine ⟨rfl, { injective := hbehind.injective, place := fun i hi => .inl ?_, mapped := ?_
                   fresh := hbehind.fresh, blocks := ?_ }⟩
    · exact ⟨hbehind.before i hi, hbehind.settled i hi⟩
    · intro i position hlookup
      cases hlookup
    · intro position tool htool
      cases htool

theorem Holding.openBlock (h : Holding s calls block) {type : LastMessagesType}
    {contentBlock : ContentBlock} (htype : type ≠ .tools) :
    Holding (s.openBlock codec type contentBlock) calls block ∧
      (s.openBlock codec type contentBlock).lastMessagesType = type := by
  unfold ConvertInfo.openBlock
  by_cases hsame : s.lastMessagesType = type
  · rw [if_pos hsame]
    exact ⟨h, hsame⟩
  · rw [if_neg hsame]
    obtain ⟨-, hbehind⟩ := @Holding.stopOpenBlocksAndAdvance codec s calls block h
    refine ⟨?_, rfl⟩
    unfold Holding
    dsimp only
    rw [if_neg htype]
    exact hbehind.append (fun _ => rfl) le_rfl

theorem Holding.emit (h : Holding s calls block) (htype : s.lastMessagesType ≠ .tools)
    (hmore : ∀ b, inputOf more b = "") : Holding (s.emit more) calls block := by
  unfold Holding ConvertInfo.emit at *
  dsimp only
  rw [if_neg htype] at h ⊢
  exact h.append hmore le_rfl

/-! ### Text and thinking -/

def Quiet (s t : ConvertInfo) : Prop := ∃ more, t.events = s.events ++ more ∧ Silent more

theorem Quiet.trans {s u : ConvertInfo} (h : Quiet s t) (h' : Quiet t u) : Quiet s u := by
  obtain ⟨more, hmore, hsilent⟩ := h
  obtain ⟨more', hmore', hsilent'⟩ := h'
  exact ⟨more ++ more', by rw [hmore', hmore, List.append_assoc], hsilent.append hsilent'⟩

theorem Quiet.same {s : ConvertInfo} (h : t.events = s.events) : Quiet s t :=
  ⟨[], by rw [h, List.append_nil], fun e he => by cases he⟩

theorem Quiet.texts {s : ConvertInfo} (h : Quiet s t) :
    textOf t.events = textOf s.events ∧ thinkingOf t.events = thinkingOf s.events := by
  obtain ⟨more, hmore, hsilent⟩ := h
  rw [hmore, textOf_append, thinkingOf_append, hsilent.textOf, hsilent.thinkingOf,
    String.append_empty, String.append_empty]
  exact ⟨rfl, rfl⟩

theorem quiet_appendStopOpenBlocks : Quiet s (s.appendStopOpenBlocks codec) := by
  have hpending : Quiet s (s.startPendingToolBlocks codec) := by
    unfold ConvertInfo.startPendingToolBlocks
    by_cases htools : s.lastMessagesType = .tools
    · rw [if_pos htools]
      refine ⟨s.toolCalls.flatMap (StreamToolCall.pendingEvents codec), rfl, fun e he => ?_⟩
      obtain ⟨tool, -, he⟩ := List.mem_flatMap.mp he
      exact silent_pendingEvents e he
    · rw [if_neg htools]
      exact .same rfl
  obtain ⟨indexes, hstops⟩ := stopOpenBlocks_eq (s.startPendingToolBlocks codec)
  refine hpending.trans ⟨indexes.map ClaudeEvent.contentBlockStop, ?_, silent_stops⟩
  rw [← hstops]
  rfl

theorem quiet_stopOpenBlocksAndAdvance : Quiet s (s.stopOpenBlocksAndAdvance codec) := by
  unfold ConvertInfo.stopOpenBlocksAndAdvance
  by_cases hnone : s.lastMessagesType = .none
  · rw [if_pos hnone]
    exact .same rfl
  · rw [if_neg hnone]
    refine (@quiet_appendStopOpenBlocks codec s).trans ?_
    dsimp only
    split <;> exact .same rfl

theorem quiet_openBlock {type : LastMessagesType} {contentBlock : ContentBlock} :
    Quiet s (s.openBlock codec type contentBlock) := by
  unfold ConvertInfo.openBlock
  by_cases hsame : s.lastMessagesType = type
  · rw [if_pos hsame]
    exact .same rfl
  · rw [if_neg hsame]
    refine (@quiet_stopOpenBlocksAndAdvance codec s).trans ⟨_, rfl, fun e he => ?_⟩
    obtain rfl := List.mem_singleton.mp he
    exact ⟨rfl, rfl⟩

theorem quiet_openTools : Quiet s (s.openTools codec) := by
  unfold ConvertInfo.openTools
  by_cases htools : s.lastMessagesType = .tools
  · rw [if_pos htools]
    exact .same rfl
  · rw [if_neg htools]
    exact (@quiet_stopOpenBlocksAndAdvance codec s).trans (.same rfl)

theorem silent_advance {call : ToolCall} : Silent (tool.advance call).2 := by
  unfold StreamToolCall.advance
  split
  · exact silent_startEvents
  · split
    · intro e he
      obtain rfl := List.mem_singleton.mp he
      exact ⟨rfl, rfl⟩
    · exact fun e he => by cases he

end Holding

/-! ### Tool calls -/

section ToolCalls

variable {s t : ConvertInfo} {calls : List (Int × ToolCall)} {block : Int → Nat} {index : Int}
  {call : ToolCall} {tool : StreamToolCall} {position : Nat}

theorem toolCall_spec (s : ConvertInfo) (index : Int) (call : ToolCall) {claim : Claim}
    (hclaim : s.claimTool index (trimSpace call.id) = claim) :
    (s.toolCall index call).events = s.events ++ ((claim.tool.take call).advance call).2 ∧
      (s.toolCall index call).toolCalls =
        claim.state.toolCalls.set claim.position ((claim.tool.take call).advance call).1 ∧
      (s.toolCall index call).toolCallByIndex = claim.state.toolCallByIndex ∧
      (s.toolCall index call).toolCallBaseIndex = s.toolCallBaseIndex ∧
      (s.toolCall index call).lastMessagesType = s.lastMessagesType := by
  have hstate : claim.state.events = s.events ∧
      claim.state.toolCallBaseIndex = s.toolCallBaseIndex ∧
      claim.state.lastMessagesType = s.lastMessagesType := by
    rw [← hclaim]
    unfold ConvertInfo.claimTool
    split <;> exact ⟨rfl, rfl, rfl⟩
  have hrecord : ∀ incomingID : String, (claim.recordID incomingID).events = claim.state.events ∧
      (claim.recordID incomingID).toolCalls = claim.state.toolCalls ∧
      (claim.recordID incomingID).toolCallByIndex = claim.state.toolCallByIndex ∧
      (claim.recordID incomingID).toolCallBaseIndex = claim.state.toolCallBaseIndex ∧
      (claim.recordID incomingID).lastMessagesType = claim.state.lastMessagesType := by
    intro incomingID
    unfold Claim.recordID
    split <;> exact ⟨rfl, rfl, rfl, rfl, rfl⟩
  have hcall : s.toolCall index call = (claim.recordID (trimSpace call.id)).putTool claim.position
      ((claim.tool.take call).advance call) := by
    rw [← hclaim]
    rfl
  rw [hcall]
  generalize trimSpace call.id = incomingID
  obtain ⟨hevents, hcalls, hindex, hbase, htype⟩ := hrecord incomingID
  obtain ⟨hevents', hbase', htype'⟩ := hstate
  refine ⟨?_, ?_, hindex, hbase.trans hbase', htype.trans htype'⟩
  · show (claim.recordID incomingID).events ++ _ = _
    rw [hevents, hevents']
  · show (claim.recordID incomingID).toolCalls.set _ _ = _
    rw [hcalls]

theorem Row.put (h : Row s calls block) {block' : Int → Nat}
    (hevents : t.events = s.events ++ ((tool.take call).advance call).2)
    (hindex : t.toolCallByIndex = (index, position) :: s.toolCallByIndex)
    (hbase : t.toolCallBaseIndex = s.toolCallBaseIndex)
    (hself : t.toolCalls[position]? = some ((tool.take call).advance call).1)
    (hothers : ∀ i, i ≠ position → t.toolCalls[i]? = s.toolCalls[i]?)
    (hlength : s.toolCalls.length ≤ t.toolCalls.length)
    (hblock : tool.blockIndex = s.toolCallBaseIndex + position)
    (hkept : Kept s.events calls index tool)
    (hnew : block' index = s.toolCallBaseIndex + position)
    (hold : ∀ i, Seen i calls → i ≠ index →
      block' i = block i ∧ block i ≠ s.toolCallBaseIndex + position) :
    Row t (calls ++ [(index, call)]) block' := by
  have hsame : ((tool.take call).advance call).1.blockIndex = tool.blockIndex := by
    unfold StreamToolCall.advance
    split
    · rfl
    · split <;> rfl
  have hinput : ∀ b, b ≠ tool.blockIndex → inputOf ((tool.take call).advance call).2 b = "" := by
    intro b hb
    unfold StreamToolCall.advance
    split
    · rw [inputOf_startEvents]
      exact if_neg (Ne.symm hb)
    · split
      · rw [inputOf_cons, inputOf_nil, String.append_empty]
        exact if_neg (Ne.symm hb)
      · rfl
  have hlookup : ∀ i, i ≠ index → t.toolCallByIndex.lookup i = s.toolCallByIndex.lookup i := by
    intro i hi
    rw [hindex, List.lookup_cons, beq_false_of_ne hi]
  have hlookupSelf : t.toolCallByIndex.lookup index = some position := by
    rw [hindex, List.lookup_cons, beq_self_eq_true]
  have hcases : ∀ i, Seen i (calls ++ [(index, call)]) → i = index ∨ i ≠ index ∧ Seen i calls := by
    intro i hi
    by_cases heq : i = index
    · exact .inl heq
    · obtain hi | hi := seen_append.mp hi
      · exact .inr ⟨heq, hi⟩
      · exact absurd hi.symm heq
  refine { injective := ?_, place := ?_, mapped := ?_, fresh := ?_, blocks := ?_ }
  · intro i j hi hj heq
    obtain rfl | ⟨hine, hi⟩ := hcases i hi
    · obtain rfl | ⟨hjne, hj⟩ := hcases j hj
      · rfl
      · obtain ⟨hblockj, hne⟩ := hold j hj hjne
        exact absurd ((hblockj.symm.trans heq.symm).trans hnew) hne
    · obtain ⟨hblocki, hne⟩ := hold i hi hine
      obtain rfl | ⟨hjne, hj⟩ := hcases j hj
      · exact absurd ((hblocki.symm.trans heq).trans hnew) hne
      · obtain ⟨hblockj, -⟩ := hold j hj hjne
        exact h.injective i j hi hj (hblocki.symm.trans (heq.trans hblockj))
  · intro i hi
    obtain rfl | ⟨hne, hi⟩ := hcases i hi
    · refine .inr ⟨position, _, hlookupSelf, hself, ?_, ?_⟩
      · rw [hsame, hblock, hnew]
      · rw [hevents]
        exact hkept.advance
    · obtain ⟨hblocki, hnotSelf⟩ := hold i hi hne
      rw [hblocki, hbase, hevents]
      have hquiet : inputOf ((tool.take call).advance call).2 (block i) = "" := by
        refine hinput _ ?_
        rw [hblock]
        exact hnotSelf
      obtain ⟨hlt, hsettled⟩ | ⟨other, tool', hother, htool', hblock', hkept'⟩ := h.place i hi
      · exact .inl ⟨hlt, (hsettled.append hquiet).later (Ne.symm hne)⟩
      · refine .inr ⟨other, tool', (hlookup i hne).trans hother, ?_, hblock', ?_⟩
        · refine (hothers other fun heq => hnotSelf ?_).trans htool'
          rw [← hblock', h.blocks other tool' htool', heq]
        · rw [hevents]
          exact (hkept'.append (hblock' ▸ hquiet)).later (Ne.symm hne)
  · intro i other hother
    rw [hbase]
    by_cases hi : i = index
    · subst hi
      obtain rfl : position = other := Option.some.inj (hlookupSelf.symm.trans hother)
      exact ⟨seen_append.mpr (.inr rfl), hnew⟩
    · rw [hlookup i hi] at hother
      obtain ⟨hseen, hplace⟩ := h.mapped i other hother
      exact ⟨seen_append.mpr (.inl hseen), (hold i hseen hi).1.trans hplace⟩
  · intro b hb
    obtain ⟨hlt, -⟩ := List.getElem?_eq_some_iff.mp hself
    rw [hevents, inputOf_append, h.fresh b (by omega), hinput b (by omega)]
    rfl
  · intro i other hother
    rw [hbase]
    by_cases hi : i = position
    · subst hi
      cases hself.symm.trans hother
      rw [hsame, hblock]
    · exact h.blocks i other ((hothers i hi).symm.trans hother)

theorem Row.toolCall (h : Row s calls block) {l : Ledger} (hstate : l.state = s)
    (hcalls : l.calls = calls) (hfits : l.CallFits (index, call)) :
    ∃ block', Row (s.toolCall index call) (calls ++ [(index, call)]) block' := by
  unfold Ledger.CallFits at hfits
  rw [hstate, hcalls] at hfits
  dsimp only at hfits
  by_cases hseen : Seen index calls
  · obtain ⟨hmapped, hfound⟩ := hfits.1 hseen
    obtain ⟨position, hposition⟩ := Option.ne_none_iff_exists'.mp hmapped
    rw [hposition, Option.map_eq_some_iff] at hfound
    obtain ⟨⟨found, tool⟩, hfind, rfl⟩ := hfound
    have hclaim : s.claimTool index (trimSpace call.id) =
        { state := { s with toolCallByIndex := (index, found) :: s.toolCallByIndex }
          position := found
          tool := tool } := by
      unfold ConvertInfo.claimTool
      rw [hfind]
    obtain ⟨hevents, htools, hindex, hbase, -⟩ := toolCall_spec s index call hclaim
    have hplace := findTool_eq_some hfind
    obtain ⟨hlt, -⟩ := List.getElem?_eq_some_iff.mp hplace
    obtain ⟨-, hblock⟩ := h.mapped index found hposition
    have hkept : Kept s.events calls index tool := by
      obtain ⟨hbehind, -⟩ | ⟨other, tool', hother, htool', -, hkept⟩ := h.place index hseen
      · omega
      · obtain rfl : found = other := Option.some.inj (hposition.symm.trans hother)
        obtain rfl : tool = tool' := Option.some.inj (hplace.symm.trans htool')
        exact hkept
    refine ⟨block, h.put hevents hindex hbase ?_ ?_ ?_ (h.blocks found tool hplace) hkept hblock ?_⟩
    · rw [htools]
      exact List.getElem?_set_self hlt
    · intro i hi
      rw [htools]
      exact List.getElem?_set_ne (Ne.symm hi)
    · rw [htools, List.length_set]
    · intro i hi hne
      exact ⟨rfl, fun heq => hne (h.injective i index hi hseen (heq.trans hblock.symm))⟩
  · have hfind := hfits.2 hseen
    have hclaim : s.claimTool index (trimSpace call.id) =
        { state := {
            s with
            toolCalls := s.toolCalls ++ [s.newTool]
            toolCallByIndex := (index, s.toolCalls.length) :: s.toolCallByIndex }
          position := s.toolCalls.length
          tool := s.newTool } := by
      unfold ConvertInfo.claimTool
      rw [hfind]
    obtain ⟨hevents, htools, hindex, hbase, -⟩ := toolCall_spec s index call hclaim
    obtain ⟨hname, harguments⟩ := said_of_not_seen hseen
    have hkept : Kept s.events calls index s.newTool := {
      name := hname.symm
      started := fun hstarted => by cases hstarted
      waiting := fun _ => ⟨h.fresh _ le_rfl, harguments.symm⟩ }
    refine ⟨Function.update block index (s.toolCallBaseIndex + s.toolCalls.length),
      h.put hevents hindex hbase ?_ ?_ ?_ rfl hkept (Function.update_self ..) ?_⟩
    · rw [htools]
      exact List.getElem?_set_self (by simp)
    · intro i hi
      rw [htools, List.getElem?_set_ne (Ne.symm hi)]
      by_cases hlt : i < s.toolCalls.length
      · exact List.getElem?_append_left hlt
      · rw [List.getElem?_eq_none (by simp; omega), List.getElem?_eq_none (by omega)]
    · rw [htools]
      simp
    · intro i hi hne
      refine ⟨Function.update_of_ne hne _ _, ?_⟩
      obtain ⟨hbehind, -⟩ | ⟨other, tool', -, htool', hblock', -⟩ := h.place i hi
      · omega
      · have hlt := (h.blocks.lt (List.mem_of_getElem? htool')).2
        omega

theorem quiet_toolCall : Quiet s (s.toolCall index call) :=
  ⟨_, (toolCall_spec s index call rfl).1, silent_advance⟩

theorem row_foldl_call : ∀ (calls : List (Int × ToolCall)) (l : Ledger),
    (∃ block, Row l.state l.calls block) → l.state.lastMessagesType = .tools →
      Machine.Meets Ledger.callStep Ledger.CallFits l calls →
        (∃ block, Row (calls.foldl Ledger.call l).state (l.calls ++ calls) block) ∧
          (calls.foldl Ledger.call l).state.lastMessagesType = .tools ∧
          Quiet l.state (calls.foldl Ledger.call l).state := by
  intro calls
  induction calls with
  | nil =>
    intro l hrow htools _
    rw [List.append_nil]
    exact ⟨hrow, htools, .same rfl⟩
  | cons next rest ih =>
    intro l hrow htools hmeets
    obtain ⟨index, call⟩ := next
    obtain ⟨block, hrow⟩ := hrow
    have hnext : ∃ block', Row (l.call (index, call)).state (l.call (index, call)).calls block' :=
      hrow.toolCall rfl rfl hmeets.1
    have htype : (l.call (index, call)).state.lastMessagesType = .tools :=
      (toolCall_spec l.state index call rfl).2.2.2.2.trans htools
    have hmeets' : Machine.Meets Ledger.callStep Ledger.CallFits (l.call (index, call)) rest :=
      hmeets.2 _ rfl
    have hquiet : Quiet l.state (l.call (index, call)).state := quiet_toolCall
    have hcalls : l.calls ++ (index, call) :: rest = (l.call (index, call)).calls ++ rest :=
      List.append_cons ..
    rw [hcalls, List.foldl_cons]
    generalize l.call (index, call) = m at hnext htype hmeets' hquiet
    obtain ⟨hrows, htools', hquiet'⟩ := ih m hnext htype hmeets'
    exact ⟨hrows, htools', hquiet.trans hquiet'⟩

theorem foldl_call_state : ∀ (calls : List (Int × ToolCall)) (l : Ledger),
    (calls.foldl Ledger.call l).state =
      calls.foldl (fun s call => s.toolCall call.1 call.2) l.state := by
  intro calls
  induction calls with
  | nil => exact fun l => rfl
  | cons call rest ih =>
    intro l
    have hstate : (l.call call).state = l.state.toolCall call.1 call.2 := rfl
    rw [List.foldl_cons, List.foldl_cons, ih, hstate]

theorem foldl_indexed (calls : List ToolCall) (s : ConvertInfo) :
    (indexed calls).foldl (fun s call => s.toolCall call.1 call.2) s =
      calls.zipIdx.foldl ConvertInfo.toolCallAt s := by
  unfold indexed
  rw [List.foldl_map]
  rfl

end ToolCalls

/-! ### Parts -/

section Parts

variable {codec : Codec} {s t : ConvertInfo} {l : Ledger} {calls : List (Int × ToolCall)}
  {block : Int → Nat} {more : List ClaudeEvent}

/-- The client has what the chunks have said so far, but for what waits in the row. -/
structure Ledger.Inv (l : Ledger) : Prop where
  text : textOf l.state.events = l.text
  thinking : thinkingOf l.state.events = l.thinking
  tools : if l.state.done then ToolsSettled l.state.events l.calls
    else ∃ block, Holding l.state l.calls block

theorem Row.append (h : Row s calls block) (hmore : ∀ b, inputOf more b = "") :
    Row (s.emit more) calls block where
  injective := h.injective
  place := by
    intro i hi
    obtain ⟨hlt, hsettled⟩ | ⟨position, tool, hlookup, htool, hblock, hkept⟩ := h.place i hi
    · exact .inl ⟨hlt, hsettled.append (hmore _)⟩
    · exact .inr ⟨position, tool, hlookup, htool, hblock, hkept.append (hmore _)⟩
  mapped := h.mapped
  fresh := by
    intro b hb
    show inputOf (s.events ++ more) b = ""
    rw [inputOf_append, hmore, h.fresh b hb]
    rfl
  blocks := h.blocks

theorem Holding.append (h : Holding s calls block) (hmore : ∀ b, inputOf more b = "") :
    Holding (s.emit more) calls block := by
  by_cases htools : s.lastMessagesType = .tools
  · unfold Holding at h ⊢
    rw [if_pos htools] at h
    exact (if_pos htools).mpr (h.append hmore)
  · exact h.emit htools hmore

theorem Holding.same (h : Holding s calls block) (htype : t.lastMessagesType = s.lastMessagesType)
    (hindex : t.index = s.index) (hbase : t.toolCallBaseIndex = s.toolCallBaseIndex)
    (htools : t.toolCalls = s.toolCalls) (hmap : t.toolCallByIndex = s.toolCallByIndex)
    (hevents : t.events = s.events) : Holding t calls block := by
  unfold Holding at h ⊢
  rw [htype, hindex, hevents]
  by_cases hrow : s.lastMessagesType = .tools
  · rw [if_pos hrow] at h ⊢
    refine { injective := h.injective, place := fun i hi => ?_, mapped := ?_, fresh := ?_
             blocks := ?_ }
    · unfold ConvertInfo.InRow
      rw [hbase, htools, hmap, hevents]
      exact h.place i hi
    · rw [hbase, hmap]
      exact h.mapped
    · rw [hbase, htools, hevents]
      exact h.fresh
    · rw [hbase, htools]
      exact h.blocks
  · rw [if_neg hrow] at h ⊢
    exact h

theorem Holding.injective (h : Holding s calls block) :
    ∀ i j, Seen i calls → Seen j calls → block i = block j → i = j := by
  unfold Holding at h
  split at h
  · exact h.injective
  · exact h.injective

theorem seen_of_name {index : Int} (h : nameOf index calls ≠ "") : Seen index calls := by
  by_contra hnot
  exact h (said_of_not_seen hnot).1

theorem Holding.finish (h : Holding s calls block) (stopReason : String) :
    ToolsSettled (s.finish codec stopReason).events calls := by
  refine ⟨block, fun i j hi hj => h.injective i j (seen_of_name hi) (seen_of_name hj),
    fun i hname => ?_⟩
  exact (h.settled i (seen_of_name hname)).append rfl hname

theorem quiet_finish {stopReason : String} : Quiet s (s.finish codec stopReason) := by
  refine (@quiet_appendStopOpenBlocks codec s).trans
    ⟨[.messageDelta stopReason, .messageStop], rfl, fun e he => ?_⟩
  simp only [List.mem_cons, List.not_mem_nil, or_false] at he
  obtain rfl | rfl := he <;> exact ⟨rfl, rfl⟩

theorem Ledger.Inv.quiet (h : l.Inv) (hquiet : Quiet l.state t)
    (htools : if t.done then ToolsSettled t.events calls else ∃ block, Holding t calls block) :
    Ledger.Inv ⟨t, l.text ++ "", l.thinking ++ "", calls⟩ where
  text := hquiet.texts.1.trans (h.text.trans String.append_empty.symm)
  thinking := hquiet.texts.2.trans (h.thinking.trans String.append_empty.symm)
  tools := htools

theorem Ledger.Inv.holding (h : l.Inv) (hgoing : l.state.done = false) :
    ∃ block, Holding l.state l.calls block := by
  have htools := h.tools
  rw [hgoing] at htools
  exact htools

theorem Ledger.Inv.usage (h : l.Inv) (hgoing : l.state.done = false) (usage : Option Usage)
    (stopReason : String) :
    Ledger.Inv ⟨if (l.state.recordUsage usage).usage then
      (l.state.recordUsage usage).finish codec stopReason else l.state.recordUsage usage,
        l.text ++ "", l.thinking ++ "", l.calls ++ []⟩ := by
  obtain ⟨block, hholding⟩ := h.holding hgoing
  have hrecorded : Holding (l.state.recordUsage usage) l.calls block :=
    hholding.same rfl rfl rfl rfl rfl rfl
  have hsame : Quiet l.state (l.state.recordUsage usage) := .same rfl
  rw [List.append_nil]
  by_cases husage : (l.state.recordUsage usage).usage = true
  · rw [if_pos husage]
    exact h.quiet (hsame.trans quiet_finish) (hrecorded.finish stopReason)
  · rw [if_neg husage]
    refine h.quiet hsame ?_
    rw [if_neg (show ¬(l.state.recordUsage usage).done = true by
      show ¬l.state.done = true
      rw [hgoing]
      exact Bool.false_ne_true)]
    exact ⟨block, hrecorded⟩

theorem Ledger.Inv.delta (h : l.Inv) (hquiet : Quiet l.state t) (hgoing : t.done = false)
    (hholding : Holding t l.calls block) (htype : t.lastMessagesType ≠ .tools)
    {delta : ContentDelta} (hinput : ∀ b, eventInput b (.contentBlockDelta t.index delta) = "") :
    Ledger.Inv ⟨t.emit [.contentBlockDelta t.index delta],
      l.text ++ eventText (.contentBlockDelta t.index delta),
      l.thinking ++ eventThinking (.contentBlockDelta t.index delta), l.calls ++ []⟩ where
  text := by
    show textOf (t.events ++ [_]) = _
    rw [textOf_append, hquiet.texts.1, h.text]
    congr 1
  thinking := by
    show thinkingOf (t.events ++ [_]) = _
    rw [thinkingOf_append, hquiet.texts.2, h.thinking]
    congr 1
  tools := by
    rw [List.append_nil]
    rw [if_neg (show ¬(t.emit [ClaudeEvent.contentBlockDelta t.index delta]).done = true by
      show ¬t.done = true
      rw [hgoing]
      exact Bool.false_ne_true)]
    refine ⟨block, hholding.emit htype fun b => ?_⟩
    rw [inputOf_cons, inputOf_nil, String.append_empty]
    exact hinput b

theorem Ledger.Inv.reasoning (h : l.Inv) (hgoing : l.state.done = false) (text : String) :
    Ledger.Inv ⟨l.state.appendReasoning codec text, l.text ++ "", l.thinking ++ text,
      l.calls ++ []⟩ := by
  obtain ⟨block, hholding⟩ := h.holding hgoing
  unfold ConvertInfo.appendReasoning
  by_cases htext : text = ""
  · rw [if_pos htext, htext, List.append_nil]
    exact h.quiet (.same rfl) h.tools
  · rw [if_neg htext]
    obtain ⟨hopened, htype⟩ := @Holding.openBlock codec _ _ _ hholding .thinking .thinking (by simp)
    exact h.delta quiet_openBlock (done_openBlock.trans hgoing) hopened (by rw [htype]; simp)
      fun b => rfl

theorem Ledger.Inv.content (h : l.Inv) (hgoing : l.state.done = false) (text : String) :
    Ledger.Inv ⟨l.state.appendContent codec text, l.text ++ text, l.thinking ++ "",
      l.calls ++ []⟩ := by
  obtain ⟨block, hholding⟩ := h.holding hgoing
  unfold ConvertInfo.appendContent
  by_cases htext : text = ""
  · rw [if_pos htext, htext, List.append_nil]
    exact h.quiet (.same rfl) h.tools
  · rw [if_neg htext]
    obtain ⟨hopened, htype⟩ := @Holding.openBlock codec _ _ _ hholding .text .text (by simp)
    exact h.delta quiet_openBlock (done_openBlock.trans hgoing) hopened (by rw [htype]; simp)
      fun b => rfl

theorem Ledger.Inv.citations (h : l.Inv) (hgoing : l.state.done = false) (raw : String) :
    Ledger.Inv ⟨l.state.appendCitationDeltas codec raw, l.text ++ "", l.thinking ++ "",
      l.calls ++ []⟩ := by
  obtain ⟨block, hholding⟩ := h.holding hgoing
  rw [List.append_nil]
  unfold ConvertInfo.appendCitationDeltas
  by_cases hcitations : codec.citations raw = []
  · rw [if_pos hcitations]
    exact h.quiet (.same rfl) h.tools
  · rw [if_neg hcitations]
    obtain ⟨hopened, htype⟩ := @Holding.openBlock codec _ _ _ hholding .text .text (by simp)
    have hgoing' : (l.state.openBlock codec .text .text).done = false :=
      done_openBlock.trans hgoing
    have hquiet : Quiet l.state (l.state.openBlock codec .text .text) := quiet_openBlock
    generalize l.state.openBlock codec .text .text = t at hopened htype hgoing' hquiet
    have hdeltas : ∀ e ∈ (codec.citations raw).map fun citation =>
        ClaudeEvent.contentBlockDelta t.index (.citations citation),
        eventText e = "" ∧ eventThinking e = "" ∧ ∀ b, eventInput b e = "" := by
      intro e he
      obtain ⟨citation, -, rfl⟩ := List.mem_map.mp he
      exact ⟨rfl, rfl, fun b => rfl⟩
    refine h.quiet (hquiet.trans ⟨_, rfl, fun e he => ?_⟩) ?_
    · obtain ⟨htext, hthinking, -⟩ := hdeltas e he
      exact ⟨htext, hthinking⟩
    · refine (if_neg (show ¬t.done = true by rw [hgoing']; exact Bool.false_ne_true)).mpr ?_
      refine ⟨block, hopened.append fun b => join_eq_empty fun e he => ?_⟩
      exact (hdeltas e he).2.2 b

theorem Ledger.Inv.toolCalls (h : l.Inv) (hgoing : l.state.done = false) (first : ToolCall)
    (rest : List ToolCall)
    (hmeets : Machine.Meets Ledger.callStep Ledger.CallFits
      { l with state := l.state.openTools codec } (indexed (first :: rest))) :
    Ledger.Inv ⟨l.state.appendToolCalls codec (first :: rest), l.text ++ "", l.thinking ++ "",
      l.calls ++ indexed (first :: rest)⟩ := by
  obtain ⟨block, hholding⟩ := h.holding hgoing
  obtain ⟨htype, hrow⟩ := @Holding.openTools codec _ _ _ hholding
  have hquiet : Quiet l.state (l.state.openTools codec) := quiet_openTools
  obtain ⟨hrows, htools, hquiet'⟩ := row_foldl_call (indexed (first :: rest))
    { l with state := l.state.openTools codec } ⟨block, hrow⟩ htype hmeets
  rw [foldl_call_state, foldl_indexed] at hrows htools hquiet'
  have hdone := (@done_appendToolCalls codec l.state (first :: rest)).trans hgoing
  unfold ConvertInfo.appendToolCalls at hdone ⊢
  dsimp only at hrows htools hquiet' hdone ⊢
  generalize (first :: rest).zipIdx.foldl ConvertInfo.toolCallAt (l.state.openTools codec) = t
    at hrows htools hquiet' hdone ⊢
  refine h.quiet ((hquiet.trans hquiet').trans (.same rfl)) ((if_neg ?_).mpr ?_)
  · show ¬t.done = true
    rw [hdone]
    exact Bool.false_ne_true
  · obtain ⟨block', hrows⟩ := hrows
    refine ⟨block', (if_pos htools).mpr ?_⟩
    exact { injective := hrows.injective, place := hrows.place, mapped := hrows.mapped
            fresh := hrows.fresh, blocks := hrows.blocks }

theorem ToolsSettled.later : ∀ {added calls : List (Int × ToolCall)} {events : List ClaudeEvent},
    ToolsSettled events calls →
      (∀ call ∈ added, trimSpace call.2.name = "" ∧ call.2.arguments = "") →
        ToolsSettled events (calls ++ added) := by
  intro added
  induction added with
  | nil =>
    intro calls events h _
    rw [List.append_nil]
    exact h
  | cons next rest ih =>
    intro calls events h hblank
    obtain ⟨other, call⟩ := next
    obtain ⟨hname, harguments⟩ := hblank (other, call) (by simp)
    have hsaid : ∀ index, nameOf index (calls ++ [(other, call)]) = nameOf index calls ∧
        argumentsOf index (calls ++ [(other, call)]) = argumentsOf index calls := by
      intro index
      rw [nameOf_append, argumentsOf_append]
      dsimp only at hname harguments
      rw [hname, harguments]
      constructor
      · split
        · next hand => exact hand.2.symm
        · rfl
      · rw [ite_self, String.append_empty]
    have hone : ToolsSettled events (calls ++ [(other, call)]) := by
      obtain ⟨block, hinjective, hsettled⟩ := h
      refine ⟨block, fun i j hi hj => hinjective i j ?_ ?_, fun index => ?_⟩
      · exact (hsaid i).1 ▸ hi
      · exact (hsaid j).1 ▸ hj
      · unfold Settled
        rw [(hsaid index).1, (hsaid index).2]
        exact hsettled index
    rw [List.append_cons]
    exact ih hone fun call hcall => hblank call (List.mem_cons_of_mem _ hcall)

theorem mem_indexed {toolCalls : List ToolCall} {call : Int × ToolCall}
    (h : call ∈ indexed toolCalls) : call.2 ∈ toolCalls := by
  obtain ⟨⟨toolCall, i⟩, hmem, rfl⟩ := List.mem_map.mp h
  exact List.fst_mem_of_mem_zipIdx hmem

variable {part : Part}

theorem Ledger.Inv.ended (h : l.Inv) (hdone : l.state.done = true) (hfits : l.Fits codec part) :
    (l.after codec part).Inv := by
  have htools := h.tools
  rw [if_pos hdone] at htools
  have hstate : (l.state.part codec part).done = true ∧
      (l.state.part codec part).events = l.state.events := part_done hdone part
  have hsettled : ToolsSettled l.state.events (l.calls ++ part.calls) := by
    refine htools.later fun call hcall => ?_
    cases part with
    | toolCalls first rest =>
      have hblank := (if_pos hdone).mp hfits
      exact hblank call.2 (mem_indexed hcall)
    | _ => cases hcall
  have hsilent : part.text = "" ∧ part.thinking = "" := by
    cases part with
    | content text => exact ⟨hfits hdone, rfl⟩
    | reasoning text => exact ⟨rfl, hfits hdone⟩
    | _ => exact ⟨rfl, rfl⟩
  refine { text := ?_, thinking := ?_, tools := ?_ }
  · show textOf (l.state.part codec part).events = l.text ++ part.text
    rw [hstate.2, hsilent.1, String.append_empty, h.text]
  · show thinkingOf (l.state.part codec part).events = l.thinking ++ part.thinking
    rw [hstate.2, hsilent.2, String.append_empty, h.thinking]
  · refine (if_pos hstate.1).mpr ?_
    show ToolsSettled (l.state.part codec part).events _
    rw [hstate.2]
    exact hsettled

theorem Ledger.Inv.after (h : l.Inv) (hfits : l.Fits codec part) : (l.after codec part).Inv := by
  by_cases hdone : l.state.done = true
  · exact h.ended hdone hfits
  · have hgoing : l.state.done = false := by rwa [Bool.not_eq_true] at hdone
    unfold Ledger.after
    rw [part_of_not_done hgoing]
    cases part with
    | start chunk =>
      obtain ⟨block, hholding⟩ := h.holding hgoing
      have hcounted : Holding (l.state.count (.start chunk)) l.calls block :=
        hholding.same rfl rfl rfl rfl rfl rfl
      show Ledger.Inv ⟨(l.state.count (.start chunk)).messageStart chunk, l.text ++ "",
        l.thinking ++ "", l.calls ++ []⟩
      have hstarted : ((l.state.count (.start chunk)).messageStart chunk).done = false :=
        done_messageStart.trans hgoing
      rw [List.append_nil]
      refine h.quiet ?_ ((if_neg (by rw [hstarted]; exact Bool.false_ne_true)).mpr ⟨block, ?_⟩)
      · unfold ConvertInfo.messageStart
        split
        · refine ⟨[.messageStart chunk.id chunk.model], rfl, fun e he => ?_⟩
          obtain rfl := List.mem_singleton.mp he
          exact ⟨rfl, rfl⟩
        · exact .same rfl
      · unfold ConvertInfo.messageStart
        split
        · have hstart : ∀ b, inputOf [.messageStart chunk.id chunk.model] b = "" := fun b => rfl
          exact (hcounted.append hstart).same rfl rfl rfl rfl rfl rfl
        · exact hcounted
    | usageOnly usage => exact h.usage hgoing usage _
    | finishReason reason =>
      obtain ⟨block, hholding⟩ := h.holding hgoing
      show Ledger.Inv ⟨{ l.state with finishReason := reason }, l.text ++ "", l.thinking ++ "",
        l.calls ++ []⟩
      rw [List.append_nil]
      exact h.quiet (.same rfl) ((if_neg hdone).mpr ⟨block, hholding.same rfl rfl rfl rfl rfl rfl⟩)
    | toolCalls first rest => exact h.toolCalls hgoing first rest ((if_neg hdone).mp hfits)
    | reasoning text => exact h.reasoning hgoing text
    | content text => exact h.content hgoing text
    | citations raw => exact h.citations hgoing raw
    | finish usage => exact h.usage hgoing usage _
    | finalize =>
      obtain ⟨block, hholding⟩ := h.holding hgoing
      show Ledger.Inv ⟨l.state.finalize codec, l.text ++ "", l.thinking ++ "", l.calls ++ []⟩
      unfold ConvertInfo.finalize
      rw [if_neg hdone, List.append_nil]
      exact h.quiet quiet_finish (hholding.finish l.state.stopReason)

end Parts

/-! ### Streams -/

section Streams

variable {codec : Codec}

theorem foldl_after : ∀ (parts : List Part) (l : Ledger),
    parts.foldl (Ledger.after codec) l =
      ⟨parts.foldl (ConvertInfo.part codec) l.state, l.text ++ String.join (parts.map Part.text),
        l.thinking ++ String.join (parts.map Part.thinking), l.calls ++ parts.flatMap Part.calls⟩ := by
  intro parts
  induction parts with
  | nil =>
    intro l
    simp only [List.foldl_nil, List.map_nil, String.join_nil, String.append_empty,
      List.flatMap_nil, List.append_nil]
  | cons part rest ih =>
    intro l
    rw [List.foldl_cons, ih]
    simp only [Ledger.after, List.foldl_cons, List.map_cons, String.join_cons, List.flatMap_cons,
      String.append_assoc, List.append_assoc]

theorem said_parts {chunk : Chunk} (h : chunk.Unmixed) :
    String.join (chunk.parts.map Part.text) = chunk.text ∧
      String.join (chunk.parts.map Part.thinking) = chunk.thinking ∧
      chunk.parts.flatMap Part.calls = chunk.calls := by
  unfold Chunk.Unmixed Chunk.text Chunk.thinking Chunk.calls at h
  unfold Chunk.parts Chunk.text Chunk.thinking Chunk.calls
  cases hchoices : chunk.choices with
  | nil => exact ⟨rfl, rfl, rfl⟩
  | cons choice rest =>
    rw [hchoices] at h
    dsimp only at h ⊢
    unfold Choice.parts
    cases hcalls : choice.delta.toolCalls with
    | nil =>
      by_cases hreason : Choice.reason choice = ""
      · simp [hreason, Part.text, Part.thinking, Part.calls, indexed]
      · simp [hreason, Part.text, Part.thinking, Part.calls, indexed]
    | cons first more =>
      obtain ⟨htext, hthinking⟩ := h (by rw [hcalls]; simp [indexed])
      rw [htext, hthinking]
      by_cases hreason : Choice.reason choice = ""
      · simp [hreason, Part.text, Part.thinking, Part.calls]
      · simp [hreason, Part.text, Part.thinking, Part.calls]

theorem said_streamParts : ∀ {chunks : List Chunk}, (∀ chunk ∈ chunks, chunk.Unmixed) →
    String.join ((streamParts chunks).map Part.text) = String.join (chunks.map Chunk.text) ∧
      String.join ((streamParts chunks).map Part.thinking) =
        String.join (chunks.map Chunk.thinking) ∧
      (streamParts chunks).flatMap Part.calls = chunks.flatMap Chunk.calls := by
  intro chunks
  induction chunks with
  | nil => exact fun _ => ⟨rfl, rfl, rfl⟩
  | cons chunk rest ih =>
    intro h
    obtain ⟨htext, hthinking, hcalls⟩ := said_parts (h chunk (by simp))
    obtain ⟨htexts, hthinkings, hcallss⟩ := ih fun other hother =>
      h other (List.mem_cons_of_mem _ hother)
    have hparts : streamParts (chunk :: rest) = chunk.parts ++ streamParts rest := by
      unfold streamParts
      rw [List.flatMap_cons, List.append_assoc]
    rw [hparts, List.map_append, List.map_append, List.flatMap_append, String.join_append,
      String.join_append, htext, hthinking, hcalls, htexts, hthinkings, hcallss, List.map_cons,
      List.map_cons, List.flatMap_cons, String.join_cons, String.join_cons]
    exact ⟨rfl, rfl, rfl⟩

theorem inv_new : Ledger.new.Inv where
  text := rfl
  thinking := rfl
  tools := by
    refine (if_neg Bool.false_ne_true).mpr ⟨fun _ => 0, (if_neg (by simp [Ledger.new,
      ConvertInfo.new])).mpr ?_⟩
    refine { injective := ?_, before := ?_, settled := ?_, fresh := fun _ _ => rfl }
    · rintro i j ⟨call, hcall, -⟩
      cases hcall
    · rintro i ⟨call, hcall, -⟩
      cases hcall
    · rintro i ⟨call, hcall, -⟩
      cases hcall

/--
The content of a stream of chunks is delivered, if no chunk mixes tool calls with text or
reasoning, none comes after the end of the message, and the tool calls find their tools.
-/
theorem stream_delivered (codec : Codec) (chunks : List Chunk)
    (hunmixed : ∀ chunk ∈ chunks, chunk.Unmixed)
    (hmeets : Machine.Meets (Ledger.step codec) (Ledger.Fits codec) .new (streamParts chunks)) :
    Delivered chunks (convert codec chunks) := by
  have hrun : Machine.run (Ledger.step codec) .new (streamParts chunks) =
      some ((streamParts chunks).foldl (Ledger.after codec) .new) := Machine.run_some _ _ _
  have hinv : ((streamParts chunks).foldl (Ledger.after codec) .new).Inv := by
    refine Machine.run_invariant Ledger.Inv (fun l part m hl hfits hstep => ?_) _ _ _ inv_new
      hmeets hrun
    cases hstep
    exact hl.after hfits
  have hdone : ((streamParts chunks).foldl (ConvertInfo.part codec) .new).done = true := by
    unfold streamParts
    rw [List.foldl_append]
    exact done_finalize
  obtain ⟨htexts, hthinkings, hcalls⟩ := said_streamParts hunmixed
  rw [foldl_after] at hinv
  have htext := hinv.text
  have hthinking := hinv.thinking
  have htools := (if_pos hdone).mp hinv.tools
  dsimp only [Ledger.new] at htext hthinking htools
  rw [foldl_streamParts, htexts, String.empty_append] at htext
  rw [foldl_streamParts, hthinkings, String.empty_append] at hthinking
  rw [foldl_streamParts, hcalls, List.nil_append] at htools
  exact ⟨htext, hthinking, htools⟩

/-- A thought, a text and a tool whose arguments come in two pieces. -/
def toolChunks : List Chunk :=
  [⟨"chat-1", "model", [⟨⟨some "text", some "thought", none, [], ""⟩, none⟩], none⟩,
    ⟨"chat-1", "model", [⟨⟨none, none, none, [⟨some 0, "call-1", "", "\x7b"⟩], ""⟩, none⟩], none⟩,
    ⟨"chat-1", "model", [⟨⟨none, none, none, [⟨some 0, "", "f", "\x7d"⟩], ""⟩, some "tool_calls"⟩],
      some ⟨true⟩⟩]

theorem toolChunks_delivered :
    Delivered toolChunks (convert ⟨fun _ => [], fun _ => "uuid"⟩ toolChunks) :=
  stream_delivered _ toolChunks (by decide +kernel) (by decide +kernel)

def mixedChunks : List Chunk :=
  [⟨"chat-1", "model", [⟨⟨some "text", none, none, [⟨some 0, "call-1", "f", "\x7b\x7d"⟩], ""⟩,
    some "tool_calls"⟩], none⟩]

/-- The text is not delivered. -/
theorem mixed_not_delivered :
    ¬Delivered mixedChunks (convert ⟨fun _ => [], fun _ => "uuid"⟩ mixedChunks) := by
  intro h
  have htext : textOf (convert ⟨fun _ => [], fun _ => "uuid"⟩ mixedChunks) ≠
      String.join (mixedChunks.map Chunk.text) := by decide +kernel
  exact htext h.text

end Streams

end JulongApi.ChatClaude
