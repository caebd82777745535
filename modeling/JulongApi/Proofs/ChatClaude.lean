/-
The stream that the conversion of chat chunks writes.

What the client has of the blocks is a list of slots: those that are behind the converter, which are
closed or have been passed over, and the row that it is working on.  A row is behind it once text,
thinking or citations follow; a tool without a name has then left its place empty, and the place
stays empty.  `part_verdict` says this of one part of a chunk.
-/
import JulongApi.ChatClaude

namespace JulongApi.ChatClaude

open ClaudeStream BlockStream

open ResponsesStream (ToolCall Choice)

/-- In a Claude stream one block of text or of thinking is open at a time. -/
def lone : ContentKind → Bool
  | .text | .thinking => true
  | .toolUse => false

def StreamToolCall.slot (tool : StreamToolCall) : Slot ContentKind :=
  if tool.started then .opened .toolUse else .unused

/-- What becomes of the slot of a tool when the tools are left. -/
def StreamToolCall.lastSlot (tool : StreamToolCall) : Slot ContentKind :=
  if tool.name = "" then .unused else .closed

def ConvertInfo.row (s : ConvertInfo) : List (Slot ContentKind) :=
  match s.lastMessagesType with
  | .none => []
  | .text => [.opened .text]
  | .thinking => [.opened .thinking]
  | .tools => s.toolCalls.map (·.slot)

def ConvertInfo.lastRow (s : ConvertInfo) : List (Slot ContentKind) :=
  match s.lastMessagesType with
  | .none => []
  | .text | .thinking => [.closed]
  | .tools => s.toolCalls.map (·.lastSlot)

def ConvertInfo.base (s : ConvertInfo) : Nat :=
  match s.lastMessagesType with
  | .tools => s.toolCallBaseIndex
  | .none | .text | .thinking => s.index

/-- What the client has: the slots behind the converter, and its row. -/
structure ConvertInfo.Inv (s : ConvertInfo) (low : List (Slot ContentKind)) : Prop where
  tells : Tells lone s.events (listed (low ++ s.row))
  base : low.length = s.base
  behind : ∀ kind, .opened kind ∉ low
  blockIndex : ∀ position tool, s.toolCalls[position]? = some tool →
    tool.blockIndex = s.toolCallBaseIndex + position
  named : ∀ tool ∈ s.toolCalls, tool.started = true → tool.name ≠ ""

/-! ### The events of tools -/

section Tools

variable {codec : Codec} {tool : StreamToolCall} {f g : Nat → Slot ContentKind}

theorem moves_startEvents (hunused : f tool.blockIndex = .unused)
    (hself : g tool.blockIndex = .opened .toolUse)
    (hothers : ∀ i, i ≠ tool.blockIndex → g i = f i) :
    ClaudeStream.Moves lone tool.startEvents f g := by
  have hstart : ClaudeStream.Moves lone
      [.contentBlockStart tool.blockIndex (.toolUse tool.id tool.name)] f g :=
    .start hunused (fun hlone => absurd hlone Bool.false_ne_true) hself hothers
  unfold StreamToolCall.startEvents
  by_cases hpending : tool.pendingArguments = ""
  · rw [if_pos hpending]
    exact hstart
  · rw [if_neg hpending]
    exact hstart.trans (.delta hself)

@[simp] theorem startPending_blockIndex :
    (tool.startPending codec).blockIndex = tool.blockIndex := by
  unfold StreamToolCall.startPending StreamToolCall.start StreamToolCall.ensureID
  split
  · split <;> rfl
  · rfl

@[simp] theorem startPending_name : (tool.startPending codec).name = tool.name := by
  unfold StreamToolCall.startPending StreamToolCall.start StreamToolCall.ensureID
  split
  · split <;> rfl
  · rfl

theorem startPending_started (hnamed : tool.started = true → tool.name ≠ "") :
    (tool.startPending codec).started = true ↔ tool.name ≠ "" := by
  unfold StreamToolCall.startPending StreamToolCall.pending
  by_cases hname : tool.name = ""
  · have hnot : ¬tool.started = true := fun h => hnamed h hname
    simp [hname, hnot]
  · cases hstarted : tool.started with
    | true => simp [hname, hstarted]
    | false => simp [hname, StreamToolCall.start]

theorem moves_pendingEvents (hf : f tool.blockIndex = tool.slot)
    (hg : g tool.blockIndex = (tool.startPending codec).slot)
    (hothers : ∀ i, i ≠ tool.blockIndex → g i = f i) :
    ClaudeStream.Moves lone (tool.pendingEvents codec) f g := by
  unfold StreamToolCall.pendingEvents
  unfold StreamToolCall.startPending at hg
  by_cases hpending : tool.pending = true
  · rw [if_pos hpending] at hg ⊢
    have hstarted : tool.started = false := by
      unfold StreamToolCall.pending at hpending
      simp only [Bool.and_eq_true, Bool.not_eq_true'] at hpending
      exact hpending.1
    have hindex : (tool.ensureID codec).blockIndex = tool.blockIndex := by
      unfold StreamToolCall.ensureID
      split <;> rfl
    refine moves_startEvents ?_ ?_ fun i hi => ?_
    · rw [hindex, hf]
      unfold StreamToolCall.slot
      rw [hstarted]
      rfl
    · rw [hindex, hg]
      rfl
    · rw [hindex] at hi
      exact hothers i hi
  · rw [if_neg hpending] at hg ⊢
    refine .same fun i => ?_
    by_cases hi : i = tool.blockIndex
    · rw [hi, hf, hg]
    · exact hothers i hi

theorem moves_startPending : ∀ (tools : List StreamToolCall) (low : List (Slot ContentKind)),
    (∀ position tool, tools[position]? = some tool → tool.blockIndex = low.length + position) →
      ClaudeStream.Moves lone (tools.flatMap (StreamToolCall.pendingEvents codec))
        (listed (low ++ tools.map (·.slot)))
        (listed (low ++ (tools.map (StreamToolCall.startPending codec)).map (·.slot))) := by
  intro tools
  induction tools with
  | nil => exact fun _ _ => .same fun _ => rfl
  | cons tool rest ih =>
    intro low hindex
    have hfirst : tool.blockIndex = low.length := hindex 0 tool rfl
    have hmove : ClaudeStream.Moves lone (tool.pendingEvents codec)
        (listed (low ++ tool.slot :: rest.map (·.slot)))
        (listed (low ++ (tool.startPending codec).slot :: rest.map (·.slot))) := by
      refine moves_pendingEvents ?_ ?_ fun i hi => ?_
      · rw [hfirst, listed_middle_self]
      · rw [hfirst, listed_middle_self]
      · rw [hfirst] at hi
        exact listed_middle_ne hi
    have hthen := ih (low ++ [(tool.startPending codec).slot]) (by
      intro position other hother
      rw [hindex (position + 1) other hother, List.length_append, List.length_singleton]
      omega)
    rw [List.append_assoc, List.append_assoc] at hthen
    exact hmove.trans hthen

theorem moves_stop : ∀ (tools : List StreamToolCall) (low : List (Slot ContentKind)),
    (∀ position tool, tools[position]? = some tool → tool.blockIndex = low.length + position) →
      ClaudeStream.Moves lone
        ((tools.filter (·.started)).map fun tool => .contentBlockStop tool.blockIndex)
        (listed (low ++ tools.map (·.slot)))
        (listed (low ++ tools.map fun tool => if tool.started then .closed else .unused)) := by
  intro tools
  induction tools with
  | nil => exact fun _ _ => .same fun _ => rfl
  | cons tool rest ih =>
    intro low hindex
    have hfirst : tool.blockIndex = low.length := hindex 0 tool rfl
    have hthen := fun x => ih (low ++ [x]) (by
      intro position other hother
      rw [hindex (position + 1) other hother, List.length_append, List.length_singleton]
      omega)
    simp only [List.append_assoc, List.singleton_append] at hthen
    cases hstarted : tool.started with
    | false =>
      rw [List.filter_cons_of_neg (by rw [hstarted]; exact Bool.false_ne_true), List.map_cons,
        List.map_cons]
      have hslot : tool.slot = .unused := by
        unfold StreamToolCall.slot
        rw [hstarted]
        rfl
      rw [hslot, hstarted]
      exact hthen .unused
    | true =>
      rw [List.filter_cons_of_pos hstarted, List.map_cons, List.map_cons, List.map_cons]
      have hslot : tool.slot = .opened .toolUse := by
        unfold StreamToolCall.slot
        rw [hstarted]
        rfl
      rw [hslot, hstarted]
      have hmove : ClaudeStream.Moves lone [.contentBlockStop tool.blockIndex]
          (listed (low ++ .opened .toolUse :: rest.map (·.slot)))
          (listed (low ++ .closed :: rest.map (·.slot))) := by
        rw [hfirst]
        exact .stop listed_middle_self listed_middle_self fun i hi => listed_middle_ne hi
      exact hmove.trans (hthen .closed)

end Tools

/-! ### The ends of blocks -/

variable {type : LastMessagesType} {contentBlock : ContentBlock}

section Ends

variable {codec : Codec} {s : ConvertInfo} {low : List (Slot ContentKind)}

def ConvertInfo.Filled (s : ConvertInfo) : Prop := s.lastMessagesType = .tools → s.toolCalls ≠ []

theorem ConvertInfo.Inv.appendStopOpenBlocks (h : s.Inv low) (codec : Codec) (hfilled : s.Filled) :
    Tells lone (s.appendStopOpenBlocks codec).events (listed (low ++ s.lastRow)) := by
  have htells := h.tells
  have hbase := h.base
  unfold ConvertInfo.row at htells
  unfold ConvertInfo.base at hbase
  unfold ConvertInfo.appendStopOpenBlocks ConvertInfo.startPendingToolBlocks
    ConvertInfo.stopOpenBlocks ConvertInfo.lastRow ConvertInfo.emit
  cases hlast : s.lastMessagesType with
  | none =>
    rw [hlast] at htells
    rw [if_neg LastMessagesType.noConfusion]
    dsimp only
    rw [hlast, List.append_nil]
    exact htells
  | text =>
    rw [hlast] at htells hbase
    dsimp only at htells hbase ⊢
    rw [if_neg (by simp), hlast]
    refine htells.moves ?_
    rw [← hbase]
    exact .stop listed_middle_self listed_middle_self fun i hi => listed_middle_ne hi
  | thinking =>
    rw [hlast] at htells hbase
    dsimp only at htells hbase ⊢
    rw [if_neg (by simp), hlast]
    refine htells.moves ?_
    rw [← hbase]
    exact .stop listed_middle_self listed_middle_self fun i hi => listed_middle_ne hi
  | tools =>
    rw [hlast] at htells hbase
    dsimp only at htells hbase ⊢
    have hindex : ∀ position tool, s.toolCalls[position]? = some tool →
        tool.blockIndex = low.length + position := by
      intro position tool htool
      rw [h.blockIndex position tool htool, hbase]
    have hindex' : ∀ position tool,
        (s.toolCalls.map (StreamToolCall.startPending codec))[position]? = some tool →
          tool.blockIndex = low.length + position := by
      intro position tool htool
      rw [List.getElem?_map, Option.map_eq_some_iff] at htool
      obtain ⟨old, hold, rfl⟩ := htool
      rw [startPending_blockIndex, hindex position old hold]
    have hstarted := htells.moves (@moves_startPending codec s.toolCalls low hindex)
    have hstopped := hstarted.moves (moves_stop _ low hindex')
    rw [if_pos rfl]
    dsimp only
    rw [if_neg (by rw [List.map_eq_nil_iff]; exact hfilled hlast)]
    refine hstopped.congr fun i => ?_
    congr 2
    rw [List.map_map]
    refine List.map_congr_left fun tool htool => ?_
    have hiff := @startPending_started codec tool (h.named tool htool)
    unfold StreamToolCall.lastSlot
    by_cases hname : tool.name = ""
    · rw [if_pos hname, Function.comp_apply, if_neg fun hs => hiff.mp hs hname]
    · rw [if_neg hname, Function.comp_apply, if_pos (hiff.mpr hname)]

@[simp] theorem length_lastRow : s.lastRow.length = s.row.length := by
  unfold ConvertInfo.lastRow ConvertInfo.row
  cases s.lastMessagesType <;> simp

theorem opened_not_mem_lastRow (kind : ContentKind) : .opened kind ∉ s.lastRow := by
  unfold ConvertInfo.lastRow
  cases s.lastMessagesType with
  | none => simp
  | text => simp
  | thinking => simp
  | tools =>
    intro hmem
    obtain ⟨tool, -, htool⟩ := List.mem_map.mp hmem
    unfold StreamToolCall.lastSlot at htool
    split at htool <;> cases htool

theorem ConvertInfo.Inv.stopOpenBlocksAndAdvance (h : s.Inv low) (codec : Codec)
    (hfilled : s.Filled) :
    (s.stopOpenBlocksAndAdvance codec).Inv (low ++ s.lastRow) ∧
      (s.stopOpenBlocksAndAdvance codec).lastMessagesType = .none := by
  have htells := h.appendStopOpenBlocks codec hfilled
  have hbase := h.base
  have hbehind : ∀ kind, .opened kind ∉ low ++ s.lastRow := by
    intro kind hmem
    obtain hlow | hrow := List.mem_append.mp hmem
    · exact h.behind kind hlow
    · exact opened_not_mem_lastRow kind hrow
  have hlength := @length_lastRow s
  unfold ConvertInfo.base at hbase
  unfold ConvertInfo.row at hlength
  unfold ConvertInfo.stopOpenBlocksAndAdvance
  by_cases hnone : s.lastMessagesType = .none
  · rw [if_pos hnone]
    refine ⟨?_, hnone⟩
    have hrow : s.lastRow = [] := by
      unfold ConvertInfo.lastRow
      rw [hnone]
    rw [hrow, List.append_nil]
    exact h
  · rw [if_neg hnone]
    have hsame : (s.appendStopOpenBlocks codec).lastMessagesType = s.lastMessagesType := by
      unfold ConvertInfo.appendStopOpenBlocks ConvertInfo.startPendingToolBlocks ConvertInfo.emit
      split <;> rfl
    dsimp only
    rw [hsame]
    by_cases htools : s.lastMessagesType = .tools
    · rw [if_pos htools]
      rw [htools] at hbase hlength
      dsimp only at hbase hlength
      have hcalls : (s.appendStopOpenBlocks codec).toolCallBaseIndex = s.toolCallBaseIndex ∧
          (s.appendStopOpenBlocks codec).toolCalls.length = s.toolCalls.length := by
        unfold ConvertInfo.appendStopOpenBlocks ConvertInfo.startPendingToolBlocks
          ConvertInfo.emit
        rw [if_pos htools]
        exact ⟨rfl, List.length_map _⟩
      refine ⟨{ tells := ?_, base := ?_, behind := hbehind, blockIndex := ?_, named := ?_ }, rfl⟩
      · unfold ConvertInfo.row
        rw [List.append_nil]
        exact htells
      · show (low ++ s.lastRow).length =
          (s.appendStopOpenBlocks codec).toolCallBaseIndex +
            (s.appendStopOpenBlocks codec).toolCalls.length
        rw [List.length_append, hlength, hbase, hcalls.1, hcalls.2, List.length_map]
      · intro position tool htool
        cases htool
      · intro tool htool
        cases htool
    · rw [if_neg htools]
      have hcalls : (s.appendStopOpenBlocks codec).toolCallBaseIndex = s.toolCallBaseIndex ∧
          (s.appendStopOpenBlocks codec).toolCalls = s.toolCalls ∧
          (s.appendStopOpenBlocks codec).index = s.index := by
        unfold ConvertInfo.appendStopOpenBlocks ConvertInfo.startPendingToolBlocks
          ConvertInfo.emit
        rw [if_neg htools]
        exact ⟨rfl, rfl, rfl⟩
      refine ⟨{ tells := ?_, base := ?_, behind := hbehind, blockIndex := ?_, named := ?_ }, rfl⟩
      · unfold ConvertInfo.row
        rw [List.append_nil]
        exact htells
      · show (low ++ s.lastRow).length = (s.appendStopOpenBlocks codec).index + 1
        rw [List.length_append, hlength, hcalls.2.2, hbase]
        cases hlast : s.lastMessagesType with
        | none => exact absurd hlast hnone
        | tools => exact absurd hlast htools
        | text => rfl
        | thinking => rfl
      · intro position tool htool
        show tool.blockIndex = (s.appendStopOpenBlocks codec).toolCallBaseIndex + position
        rw [hcalls.1]
        exact h.blockIndex position tool (hcalls.2.1 ▸ htool)
      · intro tool htool
        exact h.named tool (hcalls.2.1 ▸ htool)

theorem ConvertInfo.Inv.startBlock (h : s.Inv low) (hnone : s.lastMessagesType = .none)
    (htype : type = .text ∧ contentBlock = .text ∨ type = .thinking ∧ contentBlock = .thinking) :
    { s.emit [.contentBlockStart s.index contentBlock] with lastMessagesType := type }.Inv low := by
  have hbase := h.base
  have htells := h.tells
  unfold ConvertInfo.base at hbase
  unfold ConvertInfo.row at htells
  rw [hnone] at hbase htells
  dsimp only at hbase htells
  rw [List.append_nil] at htells
  have hmove : ClaudeStream.Moves lone [.contentBlockStart s.index contentBlock] (listed low)
      (listed (low ++ [.opened contentBlock.kind])) := by
    rw [← hbase]
    refine .start listed_length (fun _ i other hopened => ?_) listed_middle_self
      fun i hi => listed_append_ne hi
    exact absurd (mem_of_listed hopened (by simp)) (h.behind other)
  have hmoved := htells.moves hmove
  obtain ⟨rfl, rfl⟩ | ⟨rfl, rfl⟩ := htype
  · exact { tells := hmoved, base := hbase, behind := h.behind, blockIndex := h.blockIndex
            named := h.named }
  · exact { tells := hmoved, base := hbase, behind := h.behind, blockIndex := h.blockIndex
            named := h.named }

end Ends

/-! ### Tool calls -/

section ToolCalls

variable {s : ConvertInfo} {low : List (Slot ContentKind)} {tool : StreamToolCall}
  {call : ToolCall}

theorem ConvertInfo.Inv.openTools (h : s.Inv low) (codec : Codec)
    (htools : s.lastMessagesType ≠ .tools) :
    (s.openTools codec).Inv (low ++ s.lastRow) := by
  have hfilled : s.Filled := fun h => absurd h htools
  obtain ⟨hinv, hnone⟩ := h.stopOpenBlocksAndAdvance codec hfilled
  have hbase := hinv.base
  have htells := hinv.tells
  unfold ConvertInfo.base at hbase
  unfold ConvertInfo.row at htells
  rw [hnone] at hbase htells
  unfold ConvertInfo.openTools
  rw [if_neg htools]
  refine { tells := htells, base := hbase, behind := hinv.behind, blockIndex := ?_, named := ?_ }
  · intro position tool htool
    cases htool
  · intro tool htool
    cases htool

variable {position : Nat}

theorem findTool_eq_some {toolIndex : Int} {incomingID : String}
    (h : s.findTool toolIndex incomingID = some (position, tool)) :
    s.toolCalls[position]? = some tool := by
  unfold ConvertInfo.findTool at h
  dsimp only at h
  split at h
  · next found hfound =>
    split at h
    · cases h
    · obtain ⟨other, -, hother⟩ := Option.bind_eq_some_iff.mp hfound
      obtain ⟨old, hold, heq⟩ := Option.map_eq_some_iff.mp hother
      cases heq
      cases h
      exact hold
  · cases h

theorem ConvertInfo.Inv.claimTool (h : s.Inv low) (htools : s.lastMessagesType = .tools) (toolIndex : Int)
    (incomingID : String) :
    (s.claimTool toolIndex incomingID).state.Inv low ∧
      (s.claimTool toolIndex incomingID).state.lastMessagesType = .tools ∧
      (s.claimTool toolIndex incomingID).state.toolCalls[
        (s.claimTool toolIndex incomingID).position]? =
          some (s.claimTool toolIndex incomingID).tool := by
  unfold ConvertInfo.claimTool
  split
  · next position tool hfound =>
    have hplace := findTool_eq_some hfound
    refine ⟨?_, htools, hplace⟩
    exact { tells := h.tells, base := h.base, behind := h.behind, blockIndex := h.blockIndex
            named := h.named }
  · next hnone =>
    refine ⟨?_, htools, List.getElem?_concat_length⟩
    refine { tells := ?_, base := h.base, behind := h.behind, blockIndex := ?_, named := ?_ }
    · have htells := h.tells
      unfold ConvertInfo.row at htells ⊢
      rw [htools] at htells
      dsimp only at htells ⊢
      rw [htools]
      dsimp only
      rw [List.map_append, ← List.append_assoc]
      exact htells.congr fun i => listed_append_unused
    · intro position tool htool
      by_cases hlt : position < s.toolCalls.length
      · rw [List.getElem?_append_left hlt] at htool
        exact h.blockIndex position tool htool
      · rw [List.getElem?_append_right (not_lt.mp hlt)] at htool
        have hzero : position - s.toolCalls.length = 0 := by
          by_contra hne
          rw [List.getElem?_eq_none (by simp; omega)] at htool
          cases htool
        rw [hzero] at htool
        cases htool
        show s.toolCallBaseIndex + s.toolCalls.length = s.toolCallBaseIndex + position
        omega
    · intro tool htool hstarted
      obtain hold | hnew := List.mem_append.mp htool
      · exact h.named tool hold hstarted
      · obtain rfl := List.mem_singleton.mp hnew
        cases hstarted

theorem ConvertInfo.Inv.recordID {claim : Claim} (h : claim.state.Inv low) (incomingID : String) :
    (claim.recordID incomingID).Inv low ∧
      (claim.recordID incomingID).lastMessagesType = claim.state.lastMessagesType ∧
      (claim.recordID incomingID).toolCalls = claim.state.toolCalls := by
  unfold Claim.recordID
  split
  · refine ⟨?_, rfl, rfl⟩
    exact { tells := h.tells, base := h.base, behind := h.behind, blockIndex := h.blockIndex
            named := h.named }
  · exact ⟨h, rfl, rfl⟩

/-- A tool that goes on keeps its block, and is started only with a name. -/
theorem advance_spec (hnamed : tool.started = true → tool.name ≠ "") :
    (tool.advance call).1.blockIndex = tool.blockIndex ∧
      ((tool.advance call).1.started = true → (tool.advance call).1.name ≠ "") := by
  unfold StreamToolCall.advance
  by_cases hready : tool.ready = true
  · rw [if_pos hready]
    refine ⟨rfl, fun _ => ?_⟩
    unfold StreamToolCall.ready at hready
    simp only [Bool.and_eq_true, bne_iff_ne] at hready
    exact hready.2
  · rw [if_neg hready]
    split <;> exact ⟨rfl, hnamed⟩

theorem moves_advance {f g : Nat → Slot ContentKind} (hf : f tool.blockIndex = tool.slot)
    (hg : g tool.blockIndex = (tool.advance call).1.slot)
    (hothers : ∀ i, i ≠ tool.blockIndex → g i = f i) :
    ClaudeStream.Moves lone (tool.advance call).2 f g := by
  have hkept : g tool.blockIndex = tool.slot → ∀ i, g i = f i := by
    intro hsame i
    by_cases hi : i = tool.blockIndex
    · rw [hi, hf, hsame]
    · exact hothers i hi
  unfold StreamToolCall.advance at hg ⊢
  by_cases hready : tool.ready = true
  · rw [if_pos hready] at hg ⊢
    have hstarted : tool.started = false := by
      unfold StreamToolCall.ready at hready
      simp only [Bool.and_eq_true, Bool.not_eq_true'] at hready
      exact hready.1.1
    refine moves_startEvents ?_ hg hothers
    rw [hf]
    unfold StreamToolCall.slot
    rw [hstarted]
    rfl
  · rw [if_neg hready] at hg ⊢
    by_cases hmore : tool.started = true ∧ call.arguments ≠ ""
    · rw [if_pos hmore] at hg ⊢
      have hopened : f tool.blockIndex = .opened .toolUse := by
        rw [hf]
        unfold StreamToolCall.slot
        rw [if_pos hmore.1]
      have hdelta : ClaudeStream.Moves lone
          [.contentBlockDelta tool.blockIndex (.inputJson call.arguments)]
          f f := .delta hopened
      exact hdelta.trans (.same (hkept hg))
    · rw [if_neg hmore] at hg ⊢
      exact .same (hkept hg)

theorem ConvertInfo.Inv.putTool {t : ConvertInfo} (hinv : t.Inv low)
    (hlast : t.lastMessagesType = .tools) (hplace : t.toolCalls[position]? = some tool)
    (call : ToolCall) :
    (t.putTool position ((tool.take call).advance call)).Inv low ∧
      (t.putTool position ((tool.take call).advance call)).lastMessagesType = .tools ∧
      (t.putTool position ((tool.take call).advance call)).toolCalls ≠ [] := by
  have hindex := hinv.blockIndex position tool hplace
  obtain ⟨hlt, hget⟩ := List.getElem?_eq_some_iff.mp hplace
  have hmem : tool ∈ t.toolCalls := List.mem_of_getElem? hplace
  have htaken : (tool.take call).slot = tool.slot := rfl
  have hnamed : (tool.take call).started = true → (tool.take call).name ≠ "" := by
    intro hstarted
    have hname := hinv.named tool hmem hstarted
    unfold StreamToolCall.take
    rw [if_neg hname]
    exact hname
  obtain ⟨hsame, hnamed'⟩ := @advance_spec (tool.take call) call hnamed
  have hbase := hinv.base
  have htells := hinv.tells
  unfold ConvertInfo.base at hbase
  unfold ConvertInfo.row at htells
  rw [hlast] at hbase htells
  dsimp only at hbase htells
  have hplaced : (low ++ t.toolCalls.map (·.slot)).set (low.length + position)
      ((tool.take call).advance call).1.slot =
        low ++ (t.toolCalls.set position ((tool.take call).advance call).1).map (·.slot) := by
    rw [List.set_append_right _ _ (by omega), Nat.add_sub_cancel_left, List.map_set]
  have hmove : ClaudeStream.Moves lone ((tool.take call).advance call).2
      (listed (low ++ t.toolCalls.map (·.slot)))
      (listed ((low ++ t.toolCalls.map (·.slot)).set (low.length + position)
        ((tool.take call).advance call).1.slot)) := by
    have hblock : (tool.take call).blockIndex = low.length + position := by
      rw [hbase]
      exact hindex
    refine moves_advance ?_ ?_ fun i hi => ?_
    · rw [hblock, htaken]
      unfold listed
      rw [List.getElem?_append_right (by omega), Nat.add_sub_cancel_left, List.getElem?_map,
        hplace]
      rfl
    · rw [hblock]
      exact listed_set_self (by rw [List.length_append, List.length_map]; omega)
    · rw [hblock] at hi
      exact listed_set_ne hi
  refine ⟨{ tells := ?_, base := ?_, behind := hinv.behind, blockIndex := ?_, named := ?_ }, hlast,
    ?_⟩
  · unfold ConvertInfo.row ConvertInfo.putTool ConvertInfo.emit
    dsimp only
    rw [hlast]
    dsimp only
    rw [← hplaced]
    exact htells.moves hmove
  · unfold ConvertInfo.base ConvertInfo.putTool ConvertInfo.emit
    dsimp only
    rw [hlast]
    exact hbase
  · intro i other hother
    by_cases hi : i = position
    · subst hi
      have hset : (t.toolCalls.set i ((tool.take call).advance call).1)[i]? =
          some other := hother
      rw [List.getElem?_set_self hlt] at hset
      cases hset
      exact hsame.trans hindex
    · have hset : (t.toolCalls.set position ((tool.take call).advance call).1)[i]? =
          some other := hother
      rw [List.getElem?_set_ne (Ne.symm hi)] at hset
      exact hinv.blockIndex i other hset
  · intro other hother hstarted
    obtain hold | rfl := List.mem_or_eq_of_mem_set hother
    · exact hinv.named other hold hstarted
    · exact hnamed' hstarted
  · show t.toolCalls.set position _ ≠ []
    rw [ne_eq, List.set_eq_nil_iff]
    exact List.ne_nil_of_mem hmem

theorem ConvertInfo.Inv.toolCall (h : s.Inv low) (htools : s.lastMessagesType = .tools)
    (toolIndex : Int) (toolCall : ToolCall) :
    (s.toolCall toolIndex toolCall).Inv low ∧
      (s.toolCall toolIndex toolCall).lastMessagesType = .tools ∧
      (s.toolCall toolIndex toolCall).toolCalls ≠ [] := by
  unfold ConvertInfo.toolCall
  generalize trimSpace toolCall.id = incomingID
  obtain ⟨hclaim, hclaimTools, hplace⟩ := h.claimTool htools toolIndex incomingID
  obtain ⟨hinv, hlast, hcalls⟩ := hclaim.recordID incomingID
  rw [← hcalls] at hplace
  exact hinv.putTool (hlast.trans hclaimTools) hplace toolCall

theorem ConvertInfo.Inv.foldl_toolCallAt : ∀ (calls : List (ToolCall × Nat)) {s : ConvertInfo},
    s.Inv low → s.lastMessagesType = .tools → (calls = [] → s.toolCalls ≠ []) →
      (calls.foldl ConvertInfo.toolCallAt s).Inv low ∧
        (calls.foldl ConvertInfo.toolCallAt s).lastMessagesType = .tools ∧
        (calls.foldl ConvertInfo.toolCallAt s).toolCalls ≠ [] := by
  intro calls
  induction calls with
  | nil => exact fun h htools hfilled => ⟨h, htools, hfilled rfl⟩
  | cons call rest ih =>
    intro s h htools _
    obtain ⟨hinv, hlast, hfilled⟩ := h.toolCall htools (call.1.index.getD call.2) call.1
    rw [List.foldl_cons]
    exact ih hinv hlast fun _ => hfilled

end ToolCalls

/-! ### Parts -/

def Closed (low : List (Slot ContentKind)) : Prop := ∀ x ∈ low, x = .closed

def ConvertInfo.Named (s : ConvertInfo) : Prop :=
  s.lastMessagesType = .tools → ∀ tool ∈ s.toolCalls, tool.name ≠ ""

/-- The tools without a name come last. -/
def ConvertInfo.NamedFirst (s : ConvertInfo) : Prop :=
  s.lastMessagesType = .tools → s.toolCalls.Pairwise fun x y => x.name = "" → y.name = ""

/-- What follows upon tools finds all of them named, and the end those before a named one. -/
def ConvertInfo.Fits (codec : Codec) (s : ConvertInfo) (part : Part) : Prop :=
  s.done = false →
    match part with
    | .reasoning text | .content text => text ≠ "" → s.Named
    | .citations raw => codec.citations raw ≠ [] → s.Named
    | .usageOnly usage | .finish usage => s.usage = true ∨ usage ≠ none → s.NamedFirst
    | .finalize => s.NamedFirst
    | .start _ | .finishReason _ | .toolCalls _ _ => True

/-- What stands right behind the row: a block, unless the row is the first, or one of text or
thinking. -/
def ConvertInfo.Follows (s : ConvertInfo) (low : List (Slot ContentKind)) : Prop :=
  match s.lastMessagesType with
  | .none => low = []
  | .tools => ∀ x, low.getLast? = some x → x = .closed
  | .text | .thinking => True

/-- Between two parts of a stream that has begun and is not done. -/
structure ConvertInfo.Sound (s : ConvertInfo) (low : List (Slot ContentKind)) : Prop where
  inv : s.Inv low
  filled : s.Filled
  follows : s.Follows low
  counted : 0 < s.sendResponseCount
  going : s.done = false

section Parts

variable {codec : Codec} {s : ConvertInfo} {low : List (Slot ContentKind)}

theorem closed_append {row : List (Slot ContentKind)} :
    Closed (low ++ row) ↔ Closed low ∧ Closed row := by
  unfold Closed
  constructor
  · intro h
    exact ⟨fun x hx => h x (List.mem_append_left _ hx), fun x hx => h x (List.mem_append_right _ hx)⟩
  · rintro ⟨hlow, hrow⟩ x hx
    obtain hx | hx := List.mem_append.mp hx
    · exact hlow x hx
    · exact hrow x hx

theorem closed_lastRow : Closed s.lastRow ↔ s.Named := by
  unfold Closed ConvertInfo.lastRow ConvertInfo.Named
  cases s.lastMessagesType with
  | none => simp
  | text => simp
  | thinking => simp
  | tools =>
    simp only [List.mem_map, forall_exists_index, and_imp, forall_apply_eq_imp_iff₂,
      StreamToolCall.lastSlot, forall_const]
    refine forall₂_congr fun tool _ => ?_
    by_cases hname : tool.name = "" <;> simp [hname]

theorem closed_lastRow_of_not_tools (h : s.lastMessagesType ≠ .tools) : Closed s.lastRow :=
  closed_lastRow.mpr fun htools => absurd htools h

theorem ConvertInfo.Sound.emit (h : s.Sound low) {events : List ClaudeEvent}
    (hmoves : ClaudeStream.Moves lone events (listed (low ++ s.row)) (listed (low ++ s.row))) :
    (s.emit events).Sound low where
  inv := {
    tells := h.inv.tells.moves hmoves
    base := h.inv.base
    behind := h.inv.behind
    blockIndex := h.inv.blockIndex
    named := h.inv.named }
  filled := h.filled
  follows := h.follows
  counted := h.counted
  going := h.going

@[simp] theorem sendResponseCount_stopOpenBlocksAndAdvance :
    (s.stopOpenBlocksAndAdvance codec).sendResponseCount = s.sendResponseCount := by
  unfold ConvertInfo.stopOpenBlocksAndAdvance ConvertInfo.appendStopOpenBlocks
    ConvertInfo.startPendingToolBlocks ConvertInfo.emit
  by_cases htools : s.lastMessagesType = .tools
  · simp [htools]
  · simp [htools]
    split <;> rfl

theorem ConvertInfo.Sound.openBlock (h : s.Sound low) (codec : Codec)
    (htype : type = .text ∧ contentBlock = .text ∨ type = .thinking ∧ contentBlock = .thinking) :
    ∃ low', (s.openBlock codec type contentBlock).Sound low' ∧
      (s.openBlock codec type contentBlock).lastMessagesType = type ∧
      (Closed low' ↔ Closed low ∧ s.Named) := by
  unfold ConvertInfo.openBlock
  by_cases hsame : s.lastMessagesType = type
  · rw [if_pos hsame]
    have hnamed : s.Named := by
      intro htools
      rw [hsame] at htools
      obtain ⟨htext, -⟩ | ⟨hthinking, -⟩ := htype
      · cases htext.symm.trans htools
      · cases hthinking.symm.trans htools
    exact ⟨low, h, hsame, fun hlow => ⟨hlow, hnamed⟩, fun hlow => hlow.1⟩
  · rw [if_neg hsame]
    obtain ⟨hinv, hnone⟩ := h.inv.stopOpenBlocksAndAdvance codec h.filled
    refine ⟨low ++ s.lastRow, ⟨hinv.startBlock hnone htype, ?_, ?_, ?_, ?_⟩, rfl, ?_⟩
    · intro htools
      obtain ⟨htext, -⟩ | ⟨hthinking, -⟩ := htype
      · cases htext.symm.trans htools
      · cases hthinking.symm.trans htools
    · obtain ⟨rfl, -⟩ | ⟨rfl, -⟩ := htype <;> trivial
    · show 0 < (s.stopOpenBlocksAndAdvance codec).sendResponseCount
      rw [sendResponseCount_stopOpenBlocksAndAdvance]
      exact h.counted
    · exact done_stopOpenBlocksAndAdvance.trans h.going
    · rw [closed_append, closed_lastRow]

theorem ConvertInfo.Sound.moves_delta (h : s.Sound low) {delta : ContentDelta}
    (hkind : s.lastMessagesType = .text ∧ delta.kind = .text ∨
      s.lastMessagesType = .thinking ∧ delta.kind = .thinking) :
    ClaudeStream.Moves lone [.contentBlockDelta s.index delta] (listed (low ++ s.row))
      (listed (low ++ s.row)) := by
  have hbase := h.inv.base
  unfold ConvertInfo.base at hbase
  refine .delta ?_
  unfold ConvertInfo.row
  obtain ⟨hlast, hkind⟩ | ⟨hlast, hkind⟩ := hkind
  · rw [hlast] at hbase ⊢
    dsimp only at hbase ⊢
    rw [← hbase, hkind]
    exact listed_middle_self
  · rw [hlast] at hbase ⊢
    dsimp only at hbase ⊢
    rw [← hbase, hkind]
    exact listed_middle_self

theorem ConvertInfo.Sound.appendReasoning (h : s.Sound low) (text : String) :
    ∃ low', (s.appendReasoning codec text).Sound low' ∧
      (Closed low' ↔ Closed low ∧ (text ≠ "" → s.Named)) := by
  unfold ConvertInfo.appendReasoning
  by_cases htext : text = ""
  · rw [if_pos htext]
    exact ⟨low, h, fun hlow => ⟨hlow, fun hne => absurd htext hne⟩, fun hlow => hlow.1⟩
  · rw [if_neg htext]
    obtain ⟨low', hsound, hlast, hclosed⟩ := h.openBlock codec (.inr ⟨rfl, rfl⟩)
    refine ⟨low', hsound.emit (hsound.moves_delta (.inr ⟨hlast, rfl⟩)), ?_⟩
    simp only [hclosed, ne_eq, htext, not_false_eq_true, forall_const]

theorem ConvertInfo.Sound.appendContent (h : s.Sound low) (text : String) :
    ∃ low', (s.appendContent codec text).Sound low' ∧
      (Closed low' ↔ Closed low ∧ (text ≠ "" → s.Named)) := by
  unfold ConvertInfo.appendContent
  by_cases htext : text = ""
  · rw [if_pos htext]
    exact ⟨low, h, fun hlow => ⟨hlow, fun hne => absurd htext hne⟩, fun hlow => hlow.1⟩
  · rw [if_neg htext]
    obtain ⟨low', hsound, hlast, hclosed⟩ := h.openBlock codec (.inl ⟨rfl, rfl⟩)
    refine ⟨low', hsound.emit (hsound.moves_delta (.inl ⟨hlast, rfl⟩)), ?_⟩
    simp only [hclosed, ne_eq, htext, not_false_eq_true, forall_const]

theorem ConvertInfo.Sound.appendCitationDeltas (h : s.Sound low) (raw : String) :
    ∃ low', (s.appendCitationDeltas codec raw).Sound low' ∧
      (Closed low' ↔ Closed low ∧ (codec.citations raw ≠ [] → s.Named)) := by
  unfold ConvertInfo.appendCitationDeltas
  by_cases hcitations : codec.citations raw = []
  · rw [if_pos hcitations]
    exact ⟨low, h, fun hlow => ⟨hlow, fun hne => absurd hcitations hne⟩, fun hlow => hlow.1⟩
  · rw [if_neg hcitations]
    obtain ⟨low', hsound, hlast, hclosed⟩ := h.openBlock codec (.inl ⟨rfl, rfl⟩)
    refine ⟨low', hsound.emit ?_, ?_⟩
    · generalize codec.citations raw = citations
      induction citations with
      | nil => exact .same fun _ => rfl
      | cons citation rest ih => exact (hsound.moves_delta (.inl ⟨hlast, rfl⟩)).trans ih
    · simp only [hclosed, ne_eq, hcitations, not_false_eq_true, forall_const]

@[simp] theorem sendResponseCount_toolCall (toolIndex : Int) (toolCall : ToolCall) :
    (s.toolCall toolIndex toolCall).sendResponseCount = s.sendResponseCount := by
  unfold ConvertInfo.toolCall
  generalize trimSpace toolCall.id = incomingID
  have hclaim : (s.claimTool toolIndex incomingID).state.sendResponseCount =
      s.sendResponseCount := by
    unfold ConvertInfo.claimTool
    split <;> rfl
  have hrecord : ((s.claimTool toolIndex incomingID).recordID incomingID).sendResponseCount =
      (s.claimTool toolIndex incomingID).state.sendResponseCount := by
    unfold Claim.recordID
    split <;> rfl
  exact hrecord.trans hclaim

theorem sendResponseCount_foldl_toolCallAt : ∀ (calls : List (ToolCall × Nat)) (s : ConvertInfo),
    (calls.foldl ConvertInfo.toolCallAt s).sendResponseCount = s.sendResponseCount := by
  intro calls
  induction calls with
  | nil => exact fun s => rfl
  | cons call rest ih =>
    intro s
    rw [List.foldl_cons, ih]
    exact sendResponseCount_toolCall _ _

theorem ConvertInfo.Sound.openTools (h : s.Sound low) (codec : Codec) :
    ∃ low', (s.openTools codec).Inv low' ∧ (s.openTools codec).lastMessagesType = .tools ∧
      (s.openTools codec).Follows low' ∧
      (s.openTools codec).sendResponseCount = s.sendResponseCount ∧
      (s.openTools codec).done = false ∧ (Closed low' ↔ Closed low) := by
  by_cases htools : s.lastMessagesType = .tools
  · have hsame : s.openTools codec = s := if_pos htools
    rw [hsame]
    exact ⟨low, h.inv, htools, h.follows, rfl, h.going, Iff.rfl⟩
  · have hinv := h.inv.openTools codec htools
    have hclosed := closed_lastRow_of_not_tools htools
    unfold ConvertInfo.openTools at hinv ⊢
    rw [if_neg htools] at hinv ⊢
    refine ⟨low ++ s.lastRow, hinv, rfl, ?_, sendResponseCount_stopOpenBlocksAndAdvance,
      done_stopOpenBlocksAndAdvance.trans h.going, ?_⟩
    · intro x hx
      have hfollows := h.follows
      unfold ConvertInfo.Follows at hfollows
      cases hrow : s.lastRow.getLast? with
      | some y =>
        rw [List.getLast?_append, hrow] at hx
        cases hx
        exact hclosed x (List.mem_of_getLast? hrow)
      | none =>
        rw [List.getLast?_eq_none_iff] at hrow
        cases hlast : s.lastMessagesType with
        | none =>
          rw [hlast] at hfollows
          obtain rfl : low = [] := hfollows
          rw [hrow] at hx
          cases hx
        | tools => exact absurd hlast htools
        | text =>
          unfold ConvertInfo.lastRow at hrow
          rw [hlast] at hrow
          cases hrow
        | thinking =>
          unfold ConvertInfo.lastRow at hrow
          rw [hlast] at hrow
          cases hrow
    · rw [closed_append]
      exact ⟨fun hlow => hlow.1, fun hlow => ⟨hlow, hclosed⟩⟩

theorem ConvertInfo.Sound.appendToolCalls (h : s.Sound low) (codec : Codec) (first : ToolCall)
    (rest : List ToolCall) :
    ∃ low', (s.appendToolCalls codec (first :: rest)).Sound low' ∧ (Closed low' ↔ Closed low) := by
  obtain ⟨low', hinv, htools, hfollows, hcount, hdone, hclosed⟩ := h.openTools codec
  refine ⟨low', ?_, hclosed⟩
  unfold ConvertInfo.appendToolCalls
  have hne : (first :: rest).zipIdx = [] → (s.openTools codec).toolCalls ≠ [] := by
    intro hnil
    rw [List.zipIdx_cons] at hnil
    cases hnil
  have hcounted := sendResponseCount_foldl_toolCallAt (first :: rest).zipIdx (s.openTools codec)
  have hgoing := done_foldl_toolCallAt (first :: rest).zipIdx (s.openTools codec)
  obtain ⟨hloop, hlast, hfilled⟩ := hinv.foldl_toolCallAt (first :: rest).zipIdx htools hne
  generalize (first :: rest).zipIdx.foldl ConvertInfo.toolCallAt (s.openTools codec) = t
    at hloop hlast hfilled hcounted hgoing
  have hrow : t.row = t.toolCalls.map (·.slot) := by
    unfold ConvertInfo.row
    rw [hlast]
  have hbase : t.base = t.toolCallBaseIndex := by
    unfold ConvertInfo.base
    rw [hlast]
  have htells := hloop.tells
  rw [hrow] at htells
  refine ⟨{ tells := ?_, base := ?_, behind := hloop.behind, blockIndex := hloop.blockIndex
            named := hloop.named }, fun _ => hfilled, ?_, ?_, hgoing.trans hdone⟩
  · unfold ConvertInfo.row
    dsimp only
    rw [hlast]
    exact htells
  · unfold ConvertInfo.base
    dsimp only
    rw [hlast]
    exact hloop.base.trans hbase
  · unfold ConvertInfo.Follows at hfollows ⊢
    dsimp only
    rw [hlast]
    rw [htools] at hfollows
    exact hfollows
  · show 0 < t.sendResponseCount
    rw [hcounted, hcount]
    exact h.counted

theorem ConvertInfo.Sound.pairwise_lastRow (h : s.Sound low) :
    ((low ++ s.lastRow).Pairwise fun x y => x = .unused → y = .unused) ↔
      Closed low ∧ s.NamedFirst := by
  rw [List.pairwise_append]
  have hrow : (s.lastRow.Pairwise fun x y => x = .unused → y = .unused) ↔ s.NamedFirst := by
    unfold ConvertInfo.lastRow ConvertInfo.NamedFirst
    cases s.lastMessagesType with
    | none => simp
    | text => simp
    | thinking => simp
    | tools =>
      simp only [List.pairwise_map, StreamToolCall.lastSlot, forall_const]
      have hslots : ∀ x y : StreamToolCall, ((if x.name = "" then Slot.unused else .closed) =
          (.unused : Slot ContentKind) → (if y.name = "" then Slot.unused else .closed) =
          (.unused : Slot ContentKind)) ↔ (x.name = "" → y.name = "") := by
        intro x y
        by_cases hx : x.name = "" <;> by_cases hy : y.name = "" <;> simp [hx, hy]
      simp only [hslots]
  constructor
  · rintro ⟨hlow, hlast, hcross⟩
    refine ⟨fun x hx => ?_, hrow.mp hlast⟩
    cases x with
    | closed => rfl
    | opened kind => exact absurd hx (h.inv.behind kind)
    | unused =>
      have hfollows := h.follows
      unfold ConvertInfo.Follows at hfollows
      have hnot : Slot.closed ∉ s.lastRow := fun hmem => by cases hcross _ hx _ hmem rfl
      unfold ConvertInfo.lastRow at hnot
      cases htype : s.lastMessagesType with
      | none =>
        rw [htype] at hfollows
        obtain rfl : low = [] := hfollows
        cases hx
      | text =>
        rw [htype] at hnot
        exact absurd (List.mem_singleton.mpr rfl) hnot
      | thinking =>
        rw [htype] at hnot
        exact absurd (List.mem_singleton.mpr rfl) hnot
      | tools =>
        rw [htype] at hfollows
        obtain rfl | ⟨front, y, rfl⟩ := List.eq_nil_or_concat low
        · cases hx
        · rw [List.concat_eq_append] at hlow hx hfollows
          obtain rfl : y = .closed := hfollows y List.getLast?_concat
          rw [List.pairwise_append] at hlow
          obtain hfront | hback := List.mem_append.mp hx
          · cases hlow.2.2 _ hfront .closed (List.mem_singleton.mpr rfl) rfl
          · exact List.mem_singleton.mp hback
  · rintro ⟨hlow, hnamed⟩
    have hne : ∀ x ∈ low, x ≠ .unused := by
      intro x hx hunused
      cases (hlow x hx).symm.trans hunused
    refine ⟨?_, hrow.mpr hnamed, fun x hx y _ hunused => absurd hunused (hne x hx)⟩
    exact List.pairwise_of_forall_mem_list fun x hx y _ hunused => absurd hunused (hne x hx)

theorem ConvertInfo.Sound.finish (h : s.Sound low) (codec : Codec) (stopReason : String) :
    (s.finish codec stopReason).done = true ∧
      (WellFormed lone (s.finish codec stopReason).events ↔ Closed low ∧ s.NamedFirst) := by
  refine ⟨rfl, ?_⟩
  have htells := h.inv.appendStopOpenBlocks codec h.filled
  rw [← h.pairwise_lastRow]
  refine htells.finish_iff (fun kind hmem => ?_) stopReason
  obtain hlow | hrow := List.mem_append.mp hmem
  · exact h.inv.behind kind hlow
  · exact opened_not_mem_lastRow kind hrow

theorem ConvertInfo.Sound.recordUsage (h : s.Sound low) (usage : Option Usage) :
    (s.recordUsage usage).Sound low where
  inv := {
    tells := h.inv.tells
    base := h.inv.base
    behind := h.inv.behind
    blockIndex := h.inv.blockIndex
    named := h.inv.named }
  filled := h.filled
  follows := h.follows
  counted := h.counted
  going := h.going

/-- Where a part leads: on, or to the end of the stream. -/
def Verdict (t : ConvertInfo) (fits : Prop) : Prop :=
  (∃ low, t.Sound low ∧ (Closed low ↔ fits)) ∨
    t.done = true ∧ (WellFormed lone t.events ↔ fits)

theorem ConvertInfo.Sound.usage_verdict (h : s.Sound low) (usage : Option Usage)
    (stopReason : String) :
    Verdict (if (s.recordUsage usage).usage then (s.recordUsage usage).finish codec stopReason
      else s.recordUsage usage)
      (Closed low ∧ (s.usage = true ∨ usage ≠ none → s.NamedFirst)) := by
  have hsound := h.recordUsage usage
  have husage : (s.recordUsage usage).usage = true ↔ s.usage = true ∨ usage ≠ none := by
    unfold ConvertInfo.recordUsage
    rw [Bool.or_eq_true, Option.isSome_iff_ne_none]
  by_cases hvisible : (s.recordUsage usage).usage = true
  · rw [if_pos hvisible]
    obtain ⟨hdone, hwhole⟩ := hsound.finish codec stopReason
    refine .inr ⟨hdone, hwhole.trans ?_⟩
    have hiff : (s.usage = true ∨ usage ≠ none → s.NamedFirst) ↔ s.NamedFirst :=
      ⟨fun himp => himp (husage.mp hvisible), fun hnamed _ => hnamed⟩
    rw [hiff]
    rfl
  · rw [if_neg hvisible]
    refine .inl ⟨low, hsound, fun hlow => ⟨hlow, fun hseen => ?_⟩, fun hlow => hlow.1⟩
    exact absurd (husage.mpr hseen) hvisible

theorem part_verdict (h : s.Sound low) (part : Part) :
    Verdict (s.part codec part) (Closed low ∧ s.Fits codec part) := by
  rw [part_of_not_done h.going]
  have hfits : ∀ fits : Prop, (s.done = false → fits) ↔ fits :=
    fun fits => ⟨fun himp => himp h.going, fun hthen _ => hthen⟩
  unfold ConvertInfo.Fits
  rw [hfits]
  cases part with
  | start chunk =>
    have hsame : ({ s with sendResponseCount := s.sendResponseCount + 1 }).messageStart chunk =
        { s with sendResponseCount := s.sendResponseCount + 1 } := by
      refine if_neg fun hone => ?_
      have hcounted := h.counted
      dsimp only at hone
      omega
    refine .inl ⟨low, ?_, fun hlow => ⟨hlow, trivial⟩, fun hlow => hlow.1⟩
    show (({ s with sendResponseCount := s.sendResponseCount + 1 }).messageStart chunk).Sound low
    rw [hsame]
    exact {
      inv := {
        tells := h.inv.tells
        base := h.inv.base
        behind := h.inv.behind
        blockIndex := h.inv.blockIndex
        named := h.inv.named }
      filled := h.filled
      follows := h.follows
      counted := Nat.succ_pos _
      going := h.going }
  | usageOnly usage => exact h.usage_verdict usage _
  | finishReason reason =>
    refine .inl ⟨low, ?_, fun hlow => ⟨hlow, trivial⟩, fun hlow => hlow.1⟩
    exact {
      inv := {
        tells := h.inv.tells
        base := h.inv.base
        behind := h.inv.behind
        blockIndex := h.inv.blockIndex
        named := h.inv.named }
      filled := h.filled
      follows := h.follows
      counted := h.counted
      going := h.going }
  | toolCalls first rest =>
    obtain ⟨low', hsound, hclosed⟩ := h.appendToolCalls codec first rest
    exact .inl ⟨low', hsound, hclosed.trans (and_true _).symm.to_iff⟩
  | reasoning text => exact .inl (h.appendReasoning text)
  | content text => exact .inl (h.appendContent text)
  | citations raw => exact .inl (h.appendCitationDeltas raw)
  | finish usage => exact h.usage_verdict usage _
  | finalize =>
    show Verdict (s.finalize codec) _
    unfold ConvertInfo.finalize
    rw [if_neg (by rw [h.going]; exact Bool.false_ne_true)]
    exact .inr (h.finish codec s.stopReason)

end Parts

/-! ### Streams -/

section Streams

variable {codec : Codec} {s t : ConvertInfo}

def ConvertInfo.step (codec : Codec) (s : ConvertInfo) (part : Part) : Option ConvertInfo :=
  some (s.part codec part)

/-- A stream that is well formed, or can still become it. -/
def Good (s : ConvertInfo) : Prop :=
  (∃ low, s.Sound low ∧ Closed low) ∨ s.done = true ∧ WellFormed lone s.events

/-- A stream that is not well formed, or cannot become it any more. -/
def Bad (s : ConvertInfo) : Prop :=
  (∃ low, s.Sound low ∧ ¬Closed low) ∨ s.done = true ∧ ¬WellFormed lone s.events

theorem part_done (h : s.done = true) (part : Part) :
    (s.part codec part).done = true ∧ (s.part codec part).events = s.events := by
  rw [part_of_done h]
  cases part <;> exact ⟨h, rfl⟩

theorem good_step (part : Part) (h : Good s) (hstep : s.step codec part = some t) :
    (s.Fits codec part → Good t) ∧ (¬s.Fits codec part → Bad t) := by
  cases hstep
  obtain ⟨low, hsound, hclosed⟩ | ⟨hdone, hwhole⟩ := h
  · obtain ⟨low', hsound', hiff⟩ | ⟨hdone, hiff⟩ := @part_verdict codec s low hsound part
    · exact ⟨fun hfits => .inl ⟨low', hsound', hiff.mpr ⟨hclosed, hfits⟩⟩,
        fun hnot => .inl ⟨low', hsound', fun hlow => hnot (hiff.mp hlow).2⟩⟩
    · exact ⟨fun hfits => .inr ⟨hdone, hiff.mpr ⟨hclosed, hfits⟩⟩,
        fun hnot => .inr ⟨hdone, fun hwhole => hnot (hiff.mp hwhole).2⟩⟩
  · obtain ⟨hstill, hevents⟩ := @part_done codec s hdone part
    refine ⟨fun _ => .inr ⟨hstill, hevents ▸ hwhole⟩, fun hnot => absurd (fun hgoing => ?_) hnot⟩
    cases hdone.symm.trans hgoing

theorem bad_step (part : Part) (h : Bad s) (hstep : s.step codec part = some t) : Bad t := by
  cases hstep
  obtain ⟨low, hsound, hclosed⟩ | ⟨hdone, hwhole⟩ := h
  · obtain ⟨low', hsound', hiff⟩ | ⟨hdone, hiff⟩ := @part_verdict codec s low hsound part
    · exact .inl ⟨low', hsound', fun hlow => hclosed (hiff.mp hlow).1⟩
    · exact .inr ⟨hdone, fun hwhole => hclosed (hiff.mp hwhole).1⟩
  · obtain ⟨hstill, hevents⟩ := @part_done codec s hdone part
    exact .inr ⟨hstill, hevents ▸ hwhole⟩

theorem sound_start (chunk : Chunk) :
    (ConvertInfo.new.part codec (.start chunk)).Sound [] where
  inv := {
    tells := (tells_messageStart chunk.id chunk.model).congr fun _ => rfl
    base := rfl
    behind := fun _ hmem => by cases hmem
    blockIndex := fun _ _ htool => by cases htool
    named := fun _ htool => by cases htool }
  filled := fun htools => by cases htools
  follows := rfl
  counted := Nat.one_pos
  going := rfl

theorem done_finalize : (s.part codec .finalize).done = true := by
  unfold ConvertInfo.part
  by_cases hdone : s.done = true
  · rw [if_pos hdone]
    exact hdone
  · rw [if_neg hdone]
    show (s.finalize codec).done = true
    unfold ConvertInfo.finalize
    rw [if_neg hdone]
    rfl

/--
A stream of chunks is converted to a well-formed Claude stream if and only if there is a chunk,
and tools without a name come last: what follows upon tools finds all of them named.
-/
theorem claudeStream_wellFormed_iff (codec : Codec) (chunks : List Chunk) :
    WellFormed lone (convert codec chunks) ↔
      chunks ≠ [] ∧
        Machine.Meets (ConvertInfo.step codec) (ConvertInfo.Fits codec) .new (streamParts chunks) := by
  cases chunks with
  | nil =>
    refine ⟨fun ⟨r, hrun, _⟩ => ?_, fun h => absurd rfl h.1⟩
    cases hrun
  | cons chunk rest =>
    have hparts : streamParts (chunk :: rest) =
        .start chunk :: ((chunk.parts.tail ++ rest.flatMap Chunk.parts) ++ [Part.finalize]) := rfl
    rw [← foldl_streamParts, hparts]
    generalize chunk.parts.tail ++ rest.flatMap Chunk.parts = parts
    have hgood : Good (ConvertInfo.new.part codec (.start chunk)) :=
      .inl ⟨[], sound_start chunk, fun x hx => by cases hx⟩
    have hrun : Machine.run (ConvertInfo.step codec) (ConvertInfo.new.part codec (.start chunk))
        (parts ++ [Part.finalize]) = some ((parts ++ [Part.finalize]).foldl
          (ConvertInfo.part codec) (ConvertInfo.new.part codec (.start chunk))) :=
      Machine.run_some _ _ _
    have hverdict := @Machine.run_verdict _ _ (ConvertInfo.step codec)
      (ConvertInfo.Fits codec) Good Bad (fun s part t => good_step part) (fun s part t => bad_step part)
      _ _ _ hgood hrun
    have hmeets : Machine.Meets (ConvertInfo.step codec) (ConvertInfo.Fits codec) .new
        (.start chunk :: (parts ++ [Part.finalize])) ↔
          Machine.Meets (ConvertInfo.step codec) (ConvertInfo.Fits codec)
            (ConvertInfo.new.part codec (.start chunk)) (parts ++ [Part.finalize]) := by
      refine ⟨fun h => h.2 _ rfl, fun h => ⟨fun _ => trivial, fun t ht => ?_⟩⟩
      cases ht
      exact h
    have hdone : ((parts ++ [Part.finalize]).foldl (ConvertInfo.part codec)
        (ConvertInfo.new.part codec (.start chunk))).done = true := by
      rw [List.foldl_append]
      exact done_finalize
    rw [hmeets, List.foldl_cons]
    generalize (parts ++ [Part.finalize]).foldl (ConvertInfo.part codec)
      (ConvertInfo.new.part codec (.start chunk)) = last at hverdict hdone
    have hgoing : ∀ low, ¬last.Sound low := fun low hsound => by cases hdone.symm.trans hsound.going
    constructor
    · intro hwhole
      refine ⟨List.cons_ne_nil _ _, ?_⟩
      by_contra hnot
      obtain ⟨low, hsound, -⟩ | ⟨-, hbad⟩ := hverdict.2 hnot
      · exact hgoing low hsound
      · exact hbad hwhole
    · rintro ⟨-, h⟩
      obtain ⟨low, hsound, -⟩ | ⟨-, hwhole⟩ := hverdict.1 h
      · exact absurd hsound (hgoing low)
      · exact hwhole

def namelessChunks : List Chunk :=
  [⟨"chat-1", "model", [⟨⟨none, none, none, [⟨some 0, "call-1", "", "\x7b"⟩], ""⟩, none⟩], none⟩,
    ⟨"chat-1", "model", [⟨⟨some "text", none, none, [], ""⟩, some "stop"⟩], none⟩]

/-- The block of the text has the index 1, and there is no block with the index 0. -/
theorem nameless_not_wellFormed :
    ¬WellFormed lone (convert ⟨fun _ => [], fun _ => "uuid"⟩ namelessChunks) := by
  rintro ⟨r, hrun, -⟩
  cases hrun

end Streams

end JulongApi.ChatClaude
