/-
The stream of a plugin task is well formed and within its limits, and the response that is made for
retrieval is the one that the stream ends with.

`Reader` says what a well-formed stream is.  `Emits` says what the events of a part of a call do
for the reader and to the machine; it holds of every part (`emits_appendOutput`, `emits_fail`),
and of one after the other (`Emits.trans`), so that a call keeps `Inv`.
-/
import JulongApi.Lib.Except
import JulongApi.Lib.Machine
import JulongApi.PluginProtocol
import JulongApi.Proofs.Strings

namespace JulongApi.PluginProtocol

open PluginResponsesMachine

/-! ### The reader -/

def Output.outputText (output : Output) : String := String.join (output.content.map (·.text))

def StreamEvent.eventItemID (e : StreamEvent) : String :=
  match e.item with
  | some item => item.id
  | none => e.itemID

/-- Whether an event that repeats the text of its item repeats this text. -/
def StreamEvent.repeats (e : StreamEvent) (text : String) : Bool :=
  match e.type with
  | .outputTextDone => e.text = some text
  | .contentPartDone => e.part.map (·.text) = some text
  | .outputItemDone => e.item.map Output.outputText = some text
  | _ => true

/-- What is still to be said of an item that has been added. -/
def itemTypes : List EventType :=
  [.contentPartAdded, .outputTextDelta, .outputTextDone, .contentPartDone, .outputItemDone]

structure OpenItem where
  id : String
  text : String
  expected : List EventType
deriving DecidableEq, Repr

/-- A client: the texts of the items that are done, and the item under way. -/
structure Reader where
  created : Bool
  received : Nat
  texts : List String
  item : Option OpenItem
  ended : Bool
deriving DecidableEq, Repr

def Reader.start : Reader := ⟨false, 0, [], none, false⟩

/-- The next event of the item under way. -/
def Reader.proceed (r : Reader) (item : OpenItem) (e : StreamEvent) : Option Reader :=
  match item.expected with
  | [] => none
  | type :: rest =>
    if e.type = type ∧ e.outputIndex = some r.texts.length ∧ e.eventItemID = item.id ∧
        e.repeats item.text = true then
      let text := item.text ++ e.delta.getD ""
      if rest = [] then some { r with texts := r.texts ++ [text], item := none }
      else some { r with item := some ⟨item.id, text, rest⟩ }
    else none

def Reader.read (r : Reader) (e : StreamEvent) : Option Reader :=
  if e.sequenceNumber ≠ r.received ∨ r.ended then none
  else
    let r := { r with received := r.received + 1 }
    match e.type with
    | .created => if r.created then none else some { r with created := true }
    | .inProgress => if r.created ∧ r.item = none then some r else none
    | .completed | .failed | .incomplete =>
      if r.created ∧ r.item = none then some { r with ended := true } else none
    | .outputItemAdded =>
      if r.created ∧ r.item = none ∧ e.outputIndex = some r.texts.length then
        some { r with item := some ⟨e.eventItemID, "", itemTypes⟩ }
      else none
    | _ => r.item.bind fun item => r.proceed item e

/-- The events so far are those of a well-formed stream: a client can read them all, and is not in
the middle of an item. -/
def WellFormed (events : List StreamEvent) : Prop :=
  ∃ r, Machine.run Reader.read .start events = some r ∧ r.item = none

def EventType.isTerminal : EventType → Bool
  | .completed | .failed | .incomplete => true
  | _ => false

def StreamEvent.doneText (e : StreamEvent) : Option String :=
  if e.type = .outputTextDone then e.text else none

def texts (outputs : List Output) : List String := outputs.map Output.outputText

def byteSum (texts : List String) : Nat := (texts.map String.utf8ByteSize).sum

/-! ### What the parts of a call emit -/

def PluginResponsesMachine.reader (m : PluginResponsesMachine) : Reader :=
  ⟨m.started, m.nextSequence, texts m.outputs, none, m.terminal⟩

/-- The events take the machine from `m` to `m'`, and its client along. -/
structure Emits (m : PluginResponsesMachine) (events : List StreamEvent)
    (m' : PluginResponsesMachine) : Prop where
  reads : Machine.run Reader.read m.reader events = some m'.reader
  texts : texts m'.outputs = texts m.outputs ++ events.filterMap (·.doneText)
  sums : ∀ e ∈ events, e.type.isTerminal = true → m'.terminal = true ∧
    e.response.map (fun response => PluginProtocol.texts response.output) =
      some (PluginProtocol.texts m'.outputs)
  limits : m'.limits = m.limits
  total : m'.totalOutputBytes = m.totalOutputBytes + byteSum (events.filterMap (·.doneText))

section Emits

variable {m mid m' : PluginResponsesMachine} {events more : List StreamEvent}

theorem Emits.trans (hfirst : Emits m events mid) (hsecond : Emits mid more m')
    (hmid : mid.terminal = false) : Emits m (events ++ more) m' where
  reads := (Machine.run_append hfirst.reads).trans hsecond.reads
  texts := by rw [hsecond.texts, hfirst.texts, List.filterMap_append, List.append_assoc]
  sums := by
    intro e he hterminal
    obtain hold | hnew := List.mem_append.mp he
    · have hended := (hfirst.sums e hold hterminal).1
      rw [hmid] at hended
      cases hended
    · exact hsecond.sums e hnew hterminal
  limits := hsecond.limits.trans hfirst.limits
  total := by
    unfold byteSum
    rw [hsecond.total, hfirst.total, List.filterMap_append, List.map_append, List.sum_append]
    unfold byteSum
    omega

theorem Emits.silent (hreader : m'.reader = m.reader) (houtputs : m'.outputs = m.outputs)
    (hlimits : m'.limits = m.limits) (htotal : m'.totalOutputBytes = m.totalOutputBytes) :
    Emits m [] m' where
  reads := by rw [hreader]; rfl
  texts := by rw [houtputs]; simp
  sums := fun e he => absurd he List.not_mem_nil
  limits := hlimits
  total := by rw [htotal]; rfl

theorem emits_setTaskStatus (m : PluginResponsesMachine) (status : ResponseStatus) :
    Emits m [] (m.setTaskStatus status) := .silent rfl rfl rfl rfl

theorem Emits.single {e : StreamEvent} (hread : m.reader.read e = some m'.reader)
    (houtputs : m'.outputs = m.outputs) (hdone : e.doneText = none)
    (hsums : e.type.isTerminal = true → m'.terminal = true ∧
      e.response.map (fun response => PluginProtocol.texts response.output) =
        some (PluginProtocol.texts m'.outputs))
    (hlimits : m'.limits = m.limits) (htotal : m'.totalOutputBytes = m.totalOutputBytes) :
    Emits m [e] m' where
  reads := by rw [Machine.run, hread]; rfl
  texts := by rw [houtputs, List.filterMap_cons_none hdone]; simp
  sums := by
    intro other hother
    rw [List.mem_singleton.mp hother]
    exact hsums
  limits := hlimits
  total := by rw [htotal, List.filterMap_cons_none hdone]; rfl

variable (hstarted : m.started = true) (hlive : m.terminal = false)

include hstarted hlive

theorem emits_progressEvent : Emits m [m.progressEvent.1] m.progressEvent.2 := by
  refine .single ?_ rfl rfl (fun hterminal => Bool.noConfusion hterminal) rfl rfl
  unfold Reader.read progressEvent event reader
  simp [hstarted, hlive]

theorem emits_complete : Emits m [m.complete.1] m.complete.2 := by
  refine .single ?_ rfl rfl (fun _ => ⟨rfl, rfl⟩) rfl rfl
  unfold Reader.read complete responseEvent event reader
  simp [hstarted, hlive]

theorem emits_incomplete : Emits m [m.incomplete.1] m.incomplete.2 := by
  refine .single ?_ rfl rfl (fun _ => ⟨rfl, rfl⟩) rfl rfl
  unfold Reader.read incomplete responseEvent event reader
  simp [hstarted, hlive]

theorem emits_fail (code message : String) :
    Emits m [(m.fail code message).1] (m.fail code message).2 := by
  refine .single ?_ rfl rfl (fun _ => ⟨rfl, rfl⟩) rfl rfl
  unfold Reader.read fail event reader
  simp [hstarted, hlive]

omit hstarted in
theorem emits_createdEvent (hfresh : m.started = false) :
    Emits m [({ m with started := true }.responseEvent .created).1]
      ({ m with started := true }.responseEvent .created).2 := by
  refine .single ?_ rfl rfl (fun hterminal => Bool.noConfusion hterminal) rfl rfl
  unfold Reader.read responseEvent event reader
  simp [hfresh, hlive]

omit hstarted hlive in
theorem outputText_newCompletedOutput (itemID contentID text : String) :
    (newCompletedOutput itemID contentID text).outputText = text := by
  unfold Output.outputText newCompletedOutput
  simp [String.join]

omit hstarted hlive in
theorem newCompletedOutput_id (itemID contentID text : String) :
    (newCompletedOutput itemID contentID text).id = itemID := rfl

theorem emits_appendOutput (text : String) :
    Emits m (m.appendOutput text).1 (m.appendOutput text).2 := by
  have htexts : texts (m.outputs ++ [newCompletedOutput (m.itemID m.outputs.length)
      (m.contentID m.outputs.length) text]) = texts m.outputs ++ [text] := by
    unfold texts
    rw [List.map_append, List.map_singleton, outputText_newCompletedOutput]
  have hlength : (texts m.outputs).length = m.outputs.length := List.length_map _
  refine {
    reads := ?_
    texts := htexts
    sums := ?_
    limits := rfl
    total := ?_ }
  · unfold reader
    rw [show texts (m.appendOutput text).2.outputs = texts m.outputs ++ [text] from htexts]
    simp [appendOutput, outputEvents, eventAll, event, Machine.run, Reader.read, Reader.proceed,
      itemTypes, StreamEvent.eventItemID, StreamEvent.repeats, outputText_newCompletedOutput,
      newCompletedOutput_id, hstarted, hlive, hlength]
  · intro e he hterminal
    simp only [appendOutput, outputEvents, eventAll, event, List.mem_cons, List.not_mem_nil,
      or_false] at he
    obtain rfl | rfl | rfl | rfl | rfl | rfl := he <;> cases hterminal
  · show m.totalOutputBytes + text.utf8ByteSize = m.totalOutputBytes + (text.utf8ByteSize + 0)
    rfl

end Emits

/-! ### Ticks -/

variable {event : ProtocolSemanticEvent} {text : Option String}

section Ticks

variable {codec : Codec} {m : PluginResponsesMachine}

/-- What the first pass makes of an event: a text for an output, and nothing for another. -/
def Checked (checked : ProtocolSemanticEvent × Option String) : Prop :=
  if checked.1.type = .output then checked.2.isSome = true else checked.2 = none

theorem checked_checkEvent {limits : PluginProtocolLimits}
    (h : checkEvent codec limits event = .ok text) : Checked (event, text) := by
  unfold Checked
  unfold checkEvent at h
  cases htype : event.type with
  | progress =>
    rw [htype] at h
    rw [if_neg (by simp)]
    obtain ⟨hprogress, h⟩ := guard_eq_ok.mp h
    split at h
    · cases h
    · exact (Except.ok.inj h).symm
  | output =>
    rw [htype] at h
    rw [if_pos rfl]
    dsimp only at h
    cases htext : pluginOutputText codec event.data with
    | error e =>
      rw [htext] at h
      cases h
    | ok found =>
      rw [htext] at h
      dsimp only at h
      split at h
      · cases h
      · cases h
        rfl
  | error =>
    rw [htype] at h
    rw [if_neg (by simp)]
    dsimp only at h
    split at h
    · cases h
    · exact (Except.ok.inj h).symm
  | other name =>
    rw [htype] at h
    cases h

theorem checked_checkEvents {limits : PluginProtocolLimits} {events : List ProtocolSemanticEvent}
    {checked : List (ProtocolSemanticEvent × Option String)}
    (h : checkEvents codec limits events = .ok checked) : ∀ pair ∈ checked, Checked pair := by
  intro pair hpair
  obtain ⟨event, -, hevent⟩ := (mapM_ok_imp h).2 pair hpair
  cases hcheck : checkEvent codec limits event with
  | error e =>
    rw [hcheck] at hevent
    cases hevent
  | ok text =>
    rw [hcheck] at hevent
    cases hevent
    exact checked_checkEvent hcheck

theorem emits_applyEvent (codec : Codec) (hstarted : m.started = true) (hlive : m.terminal = false)
    (hchecked : Checked (event, text)) :
    Emits m (m.applyEvent codec event text).1 (m.applyEvent codec event text).2 ∧
      (m.applyEvent codec event text).1.filterMap (·.doneText) = text.toList ∧
      (event.type ≠ .error → (m.applyEvent codec event text).2.started = true ∧
        (m.applyEvent codec event text).2.terminal = false) := by
  unfold Checked at hchecked
  dsimp only at hchecked
  unfold applyEvent
  cases htype : event.type with
  | progress =>
    rw [htype, if_neg (by simp)] at hchecked
    subst hchecked
    dsimp only
    have hsilent : Emits m [] (m.setProgress codec event) := .silent rfl rfl rfl rfl
    have hstarted' : (m.setProgress codec event).started = true := hstarted
    have hlive' : (m.setProgress codec event).terminal = false := hlive
    by_cases hempty : (m.setProgress codec event).outputs = []
    · rw [if_pos hempty]
      exact ⟨hsilent.trans (emits_progressEvent hstarted' hlive') hlive', rfl,
        fun _ => ⟨hstarted, hlive⟩⟩
    · rw [if_neg hempty]
      exact ⟨hsilent, rfl, fun _ => ⟨hstarted, hlive⟩⟩
  | output =>
    rw [htype, if_pos rfl] at hchecked
    obtain ⟨found, rfl⟩ := Option.isSome_iff_exists.mp hchecked
    exact ⟨emits_appendOutput hstarted hlive found, rfl, fun _ => ⟨hstarted, hlive⟩⟩
  | error =>
    rw [htype, if_neg (by simp)] at hchecked
    subst hchecked
    exact ⟨emits_fail hstarted hlive _ _, rfl, fun hne => absurd rfl hne⟩
  | other name =>
    rw [htype, if_neg (by simp)] at hchecked
    subst hchecked
    exact ⟨.silent rfl rfl rfl rfl, rfl, fun _ => ⟨hstarted, hlive⟩⟩

theorem emits_endTick (hstarted : m.started = true) (hlive : m.terminal = false)
    (taskStatus : String) (done : Bool) :
    Emits m (m.endTick taskStatus done).1 (m.endTick taskStatus done).2 ∧
      (m.endTick taskStatus done).1.filterMap (·.doneText) = [] := by
  unfold endTick
  dsimp only
  by_cases hsuccess : toUpper (trimSpace taskStatus) = "SUCCESS"
  · rw [if_pos hsuccess]
    exact ⟨emits_complete hstarted hlive, rfl⟩
  · rw [if_neg hsuccess]
    by_cases hfailure : toUpper (trimSpace taskStatus) = "FAILURE"
    · rw [if_pos hfailure]
      exact ⟨emits_fail hstarted hlive _ _, rfl⟩
    · rw [if_neg hfailure]
      by_cases hdone : done = true
      · rw [if_pos hdone]
        exact ⟨emits_incomplete hstarted hlive, rfl⟩
      · rw [if_neg hdone]
        exact ⟨.silent rfl rfl rfl rfl, rfl⟩

theorem outputTexts_cons (event : ProtocolSemanticEvent) (text : Option String)
    (rest : List (ProtocolSemanticEvent × Option String)) :
    outputTexts ((event, text) :: rest) = text.toList ++ outputTexts rest := by
  unfold outputTexts
  cases text with
  | none => rfl
  | some found => rfl

theorem emits_applyEvents (codec : Codec) (taskStatus : String) (done : Bool) :
    ∀ {checked : List (ProtocolSemanticEvent × Option String)} {m : PluginResponsesMachine},
      m.started = true → m.terminal = false →
      (∀ pair ∈ checked, Checked pair) →
        Emits m (applyEvents codec taskStatus done checked m).1
          (applyEvents codec taskStatus done checked m).2 ∧
        (applyEvents codec taskStatus done checked m).1.filterMap
          (·.doneText) <+: outputTexts checked := by
  intro checked
  induction checked with
  | nil =>
    intro m hstarted hlive _
    obtain ⟨hemits, hnone⟩ := emits_endTick hstarted hlive taskStatus done
    refine ⟨hemits, ?_⟩
    rw [applyEvents, hnone]
    exact List.nil_prefix
  | cons pair rest ih =>
    intro m hstarted hlive hchecked
    obtain ⟨event, text⟩ := pair
    obtain ⟨hfirst, htext, hgoes⟩ :=
      emits_applyEvent codec hstarted hlive (hchecked _ List.mem_cons_self)
    rw [applyEvents, outputTexts_cons]
    dsimp only
    by_cases herror : event.type = .error
    · rw [if_pos herror]
      refine ⟨hfirst, ?_⟩
      dsimp only
      rw [htext]
      exact List.prefix_append _ _
    · rw [if_neg herror]
      obtain ⟨hstarted', hlive'⟩ := hgoes herror
      obtain ⟨hrest, hprefix⟩ := ih hstarted' hlive' fun pair hpair =>
        hchecked pair (List.mem_cons_of_mem _ hpair)
      refine ⟨hfirst.trans hrest hlive', ?_⟩
      dsimp only
      rw [List.filterMap_append, htext]
      exact (List.prefix_append_right_inj _).mpr hprefix

end Ticks

/-! ### Calls -/

section Calls

variable {codec : Codec} {m : PluginResponsesMachine}

/-- The outputs are within the limits of the machine. -/
structure PluginResponsesMachine.Within (m : PluginResponsesMachine) : Prop where
  outputs : (m.outputs.length : Int) ≤ m.limits.maxOutputs
  bytes : (m.totalOutputBytes : Int) ≤ m.limits.maxTotalOutputBytes

theorem Emits.within {events : List StreamEvent} {m' : PluginResponsesMachine}
    (h : Emits m events m') (hnone : events.filterMap (·.doneText) = []) (hwithin : m.Within) :
    m'.Within where
  outputs := by
    have hlength := congrArg List.length h.texts
    rw [hnone, List.append_nil] at hlength
    unfold PluginProtocol.texts at hlength
    rw [List.length_map, List.length_map] at hlength
    rw [hlength, h.limits]
    exact hwithin.outputs
  bytes := by
    rw [h.total, hnone, h.limits]
    exact hwithin.bytes

/-- A call that is refused leaves the machine as it is; what another one does is emitted. -/
inductive Outcome (m : PluginResponsesMachine) : Result (List StreamEvent) → Prop
  | refused (e : String) : Outcome m (.error e, m)
  | emitted {events : List StreamEvent} {m' : PluginResponsesMachine}
      (hlive : m.terminal = false) (hemits : Emits m events m')
      (hwithin : m.Within → m'.Within) : Outcome m (.ok events, m')

theorem outcome_applyTick (codec : Codec) (m : PluginResponsesMachine)
    (result : ProtocolEventResult) (taskStatus : String) :
    Outcome m (m.applyTick codec result taskStatus) := by
  unfold applyTick
  by_cases hstarted : m.started = false
  · rw [if_pos hstarted]
    exact .refused _
  rw [if_neg hstarted]
  rw [Bool.not_eq_false] at hstarted
  by_cases hended : m.terminal = true
  · rw [if_pos hended]
    exact .refused _
  rw [if_neg hended]
  rw [Bool.not_eq_true] at hended
  by_cases hfailure : equalFold (trimSpace taskStatus) "FAILURE" = true
  · rw [if_pos hfailure]
    have hfail := (emits_setTaskStatus m .failed).trans
      (emits_fail (m := m.setTaskStatus .failed) hstarted hended "server_error" "The task failed.")
      hended
    exact .emitted hended hfail (hfail.within rfl)
  rw [if_neg hfailure]
  cases hcheck : checkEvents codec m.limits result.events with
  | error e => exact .refused e
  | ok checked =>
    dsimp only
    by_cases hcount : (m.outputs.length + (outputTexts checked).length : Int) > m.limits.maxOutputs
    · rw [if_pos hcount]
      exact .refused _
    rw [if_neg hcount]
    by_cases hbytes : (m.totalOutputBytes + ((outputTexts checked).map String.utf8ByteSize).sum :
        Int) > m.limits.maxTotalOutputBytes
    · rw [if_pos hbytes]
      exact .refused _
    rw [if_neg hbytes]
    generalize pluginTaskStatus taskStatus = status
    have hset := emits_setTaskStatus m status
    obtain ⟨hrest, hprefix⟩ := emits_applyEvents codec taskStatus result.done
      (m := m.setTaskStatus status) hstarted hended (checked_checkEvents hcheck)
    generalize applyEvents codec taskStatus result.done checked
      (m.setTaskStatus status) = applied at hrest hprefix ⊢
    obtain ⟨events, m'⟩ := applied
    have hall := hset.trans hrest hended
    refine .emitted hended hall fun _ => ?_
    obtain ⟨cut, hcut⟩ := hprefix
    have hlength := congrArg List.length hall.texts
    unfold PluginProtocol.texts at hlength
    rw [List.length_append, List.length_map, List.length_map] at hlength
    rw [← hcut, List.length_append] at hcount
    rw [← hcut, List.map_append, List.sum_append] at hbytes
    have htotal := hall.total
    unfold byteSum at htotal
    dsimp only [List.nil_append] at hlength htotal hcount hbytes
    have hlimits : m'.limits = m.limits := hall.limits
    constructor
    · show (m'.outputs.length : Int) ≤ m'.limits.maxOutputs
      rw [hlimits]
      omega
    · show (m'.totalOutputBytes : Int) ≤ m'.limits.maxTotalOutputBytes
      rw [hlimits]
      omega

theorem emits_setPersistedTaskStatus (m : PluginResponsesMachine) (taskStatus : List String) :
    Emits m [] (m.setPersistedTaskStatus taskStatus) ∧
      (m.setPersistedTaskStatus taskStatus).started = m.started ∧
      (m.setPersistedTaskStatus taskStatus).terminal = m.terminal := by
  cases taskStatus with
  | nil => exact ⟨.silent rfl rfl rfl rfl, rfl, rfl⟩
  | cons status rest =>
    unfold setPersistedTaskStatus
    dsimp only
    generalize pluginTaskStatus status = status
    exact ⟨emits_setTaskStatus m status, rfl, rfl⟩

theorem outcome_createdEvent (m : PluginResponsesMachine) :
    Outcome m (m.createdEvent.1.map ([·]), m.createdEvent.2) := by
  unfold createdEvent
  by_cases hstarted : m.started = true
  · rw [if_pos hstarted]
    exact .refused _
  rw [if_neg hstarted]
  by_cases hended : m.terminal = true
  · rw [if_pos hended]
    exact .refused _
  rw [if_neg hended]
  rw [Bool.not_eq_true] at hstarted hended
  have hcreated := emits_createdEvent hended hstarted
  exact .emitted hended hcreated (hcreated.within rfl)

theorem outcome_ending {m : PluginResponsesMachine} {taskStatus : List String} {refusal : String}
    (send : PluginResponsesMachine → StreamEvent × PluginResponsesMachine)
    (hsend : ∀ {m : PluginResponsesMachine}, m.started = true → m.terminal = false →
      Emits m [(send m).1] (send m).2 ∧ (send m).1.doneText = none) {result : Result StreamEvent}
    (hresult : result =
      if m.started = false then (.error refusal, m)
      else if m.terminal then (.error "response is already terminal", m)
      else (.ok (send (m.setPersistedTaskStatus taskStatus)).1,
        (send (m.setPersistedTaskStatus taskStatus)).2)) :
    Outcome m (result.1.map ([·]), result.2) := by
  subst hresult
  by_cases hstarted : m.started = false
  · rw [if_pos hstarted]
    exact .refused _
  rw [if_neg hstarted]
  by_cases hended : m.terminal = true
  · rw [if_pos hended]
    exact .refused _
  rw [if_neg hended]
  rw [Bool.not_eq_true] at hended
  rw [Bool.not_eq_false] at hstarted
  obtain ⟨hset, hsame, hlive⟩ := emits_setPersistedTaskStatus m taskStatus
  obtain ⟨hsent, hnone⟩ := hsend (hsame.trans hstarted) (hlive.trans hended)
  have hboth := hset.trans hsent (hlive.trans hended)
  exact .emitted hended hboth (hboth.within (by simp [hnone]))

theorem outcome_failureEvent (m : PluginResponsesMachine) (taskStatus : List String) :
    Outcome m ((m.failureEvent taskStatus).1.map ([·]), (m.failureEvent taskStatus).2) :=
  outcome_ending (fun m => m.fail "server_error" "The task could not be observed.")
    (fun hstarted hlive => ⟨emits_fail hstarted hlive _ _, rfl⟩) rfl

theorem outcome_timeoutEvent (m : PluginResponsesMachine) (taskStatus : List String) :
    Outcome m ((m.timeoutEvent taskStatus).1.map ([·]), (m.timeoutEvent taskStatus).2) :=
  outcome_ending (fun m => m.incomplete)
    (fun hstarted hlive => ⟨emits_incomplete hstarted hlive, rfl⟩) rfl

theorem outcome_call (codec : Codec) (m : PluginResponsesMachine) (call : Call) :
    Outcome m (m.call codec call) := by
  cases call with
  | createdEvent => exact outcome_createdEvent m
  | applyTick result taskStatus => exact outcome_applyTick codec m result taskStatus
  | failureEvent taskStatus => exact outcome_failureEvent m taskStatus
  | timeoutEvent taskStatus => exact outcome_timeoutEvent m taskStatus

end Calls

/-! ### Runs -/

section Runs

variable {codec : Codec} {taskID model : String} {createdAt : Int} {limits : PluginProtocolLimits}

/-- The machine has come from a fresh one by what has been emitted, within its limits. -/
structure Session.Inv (fresh : PluginResponsesMachine) (s : Session) : Prop where
  emits : Emits fresh s.emitted s.machine
  within : s.machine.Within

theorem Session.Inv.call {fresh : PluginResponsesMachine} {s : Session} (h : s.Inv fresh)
    (codec : Codec) (call : Call) : (s.call codec call).Inv fresh := by
  have houtcome := outcome_call codec s.machine call
  unfold Session.call
  generalize s.machine.call codec call = result at houtcome ⊢
  cases houtcome with
  | refused e => exact ⟨h.emits, h.within⟩
  | emitted hlive hemits hwithin => exact ⟨h.emits.trans hemits hlive, hwithin h.within⟩

theorem inv_new : (Session.new taskID model createdAt limits).Inv
    (.new taskID model createdAt limits) where
  emits := .silent rfl rfl rfl rfl
  within := by
    unfold Session.new PluginResponsesMachine.new PluginProtocolLimits.withDefaults
      defaultPluginProtocolLimits
    constructor
    · dsimp only
      split
      · decide
      · rw [List.length_nil]
        omega
    · dsimp only
      split
      · decide
      · omega

theorem inv_run (codec : Codec) (calls : List Call) :
    (calls.foldl (Session.call codec) (.new taskID model createdAt limits)).Inv
      (.new taskID model createdAt limits) :=
  List.foldlRecOn calls _ inv_new fun _ h call _ => h.call codec call

end Runs

/-! ### Retrieval -/

section Retrieval

variable {codec : Codec} {m : PluginResponsesMachine} {taskStatus : String} {done : Bool}

/-- The machine with another number for its next event. -/
def PluginResponsesMachine.at (m : PluginResponsesMachine) (n : Nat) : PluginResponsesMachine :=
  { m with nextSequence := n }

theorem eventAll_at : ∀ (events : List StreamEvent) (m : PluginResponsesMachine) (n : Nat),
    ∃ k, (eventAll events (m.at n)).2 = (eventAll events m).2.at k := by
  intro events
  induction events with
  | nil => exact fun m n => ⟨n, rfl⟩
  | cons event rest ih => exact fun m n => ih (m.event event).2 (n + 1)

theorem appendOutput_at (m : PluginResponsesMachine) (text : String) (n : Nat) :
    ∃ k, ((m.at n).appendOutput text).2 = (m.appendOutput text).2.at k :=
  eventAll_at _ { m with
    outputs := m.outputs ++ [newCompletedOutput (m.itemID m.outputs.length)
      (m.contentID m.outputs.length) text]
    totalOutputBytes := m.totalOutputBytes + text.utf8ByteSize } n

theorem applyEvent_at (event : ProtocolSemanticEvent) (text : Option String) (n : Nat) :
    ∃ k, ((m.at n).applyEvent codec event text).2 = (m.applyEvent codec event text).2.at k := by
  unfold applyEvent
  cases event.type with
  | progress =>
    dsimp only
    by_cases hempty : (m.setProgress codec event).outputs = []
    · have hempty' : ((m.at n).setProgress codec event).outputs = [] := hempty
      rw [if_pos hempty, if_pos hempty']
      exact ⟨n + 1, rfl⟩
    · have hsome : ¬((m.at n).setProgress codec event).outputs = [] := hempty
      rw [if_neg hempty, if_neg hsome]
      exact ⟨n, rfl⟩
  | output => exact appendOutput_at m _ n
  | error => exact ⟨n + 1, rfl⟩
  | other name => exact ⟨n, rfl⟩

theorem endTick_at (m : PluginResponsesMachine) (taskStatus : String) (done : Bool) (n : Nat) :
    ∃ k, ((m.at n).endTick taskStatus done).2 = (m.endTick taskStatus done).2.at k := by
  unfold endTick
  dsimp only
  split
  · exact ⟨n + 1, rfl⟩
  · split
    · exact ⟨n + 1, rfl⟩
    · split
      · exact ⟨n + 1, rfl⟩
      · exact ⟨n, rfl⟩

theorem applyEvents_at : ∀ (checked : List (ProtocolSemanticEvent × Option String))
    (m : PluginResponsesMachine) (n : Nat),
      ∃ k, (applyEvents codec taskStatus done checked (m.at n)).2 =
        (applyEvents codec taskStatus done checked m).2.at k := by
  intro checked
  induction checked with
  | nil => exact fun m n => endTick_at m taskStatus done n
  | cons pair rest ih =>
    intro m n
    obtain ⟨event, text⟩ := pair
    obtain ⟨k, hk⟩ := @applyEvent_at codec m event text n
    rw [applyEvents, applyEvents]
    dsimp only
    rw [hk]
    by_cases herror : event.type = .error
    · rw [if_pos herror, if_pos herror]
      exact ⟨k, rfl⟩
    · rw [if_neg herror, if_neg herror]
      exact ih _ k

theorem applyTick_at (codec : Codec) (m : PluginResponsesMachine) (result : ProtocolEventResult)
    (taskStatus : String) (n : Nat) :
    (∃ e, m.applyTick codec result taskStatus = (.error e, m) ∧
        (m.at n).applyTick codec result taskStatus = (.error e, m.at n)) ∨
      ∃ events events' m' k, m.applyTick codec result taskStatus = (.ok events, m') ∧
        (m.at n).applyTick codec result taskStatus = (.ok events', m'.at k) := by
  unfold applyTick
  have hstarted : (m.at n).started = m.started := rfl
  have hterminal : (m.at n).terminal = m.terminal := rfl
  have hlimits : (m.at n).limits = m.limits := rfl
  have houtputs : (m.at n).outputs = m.outputs := rfl
  have htotal : (m.at n).totalOutputBytes = m.totalOutputBytes := rfl
  rw [hstarted, hterminal, hlimits, houtputs, htotal]
  by_cases hnot : m.started = false
  · rw [if_pos hnot, if_pos hnot]
    exact .inl ⟨_, rfl, rfl⟩
  rw [if_neg hnot, if_neg hnot]
  by_cases hended : m.terminal = true
  · rw [if_pos hended, if_pos hended]
    exact .inl ⟨_, rfl, rfl⟩
  rw [if_neg hended, if_neg hended]
  by_cases hfailure : equalFold (trimSpace taskStatus) "FAILURE" = true
  · rw [if_pos hfailure, if_pos hfailure]
    exact .inr ⟨_, _, _, n + 1, rfl, rfl⟩
  rw [if_neg hfailure, if_neg hfailure]
  cases checkEvents codec m.limits result.events with
  | error e => exact .inl ⟨e, rfl, rfl⟩
  | ok checked =>
    dsimp only
    split
    · exact .inl ⟨_, rfl, rfl⟩
    · split
      · exact .inl ⟨_, rfl, rfl⟩
      · generalize pluginTaskStatus taskStatus = status
        obtain ⟨k, hk⟩ := @applyEvents_at codec taskStatus result.done checked
          (m.setTaskStatus status) n
        refine .inr ⟨_, (applyEvents codec taskStatus result.done checked
          ((m.setTaskStatus status).at n)).1, _, k, rfl, ?_⟩
        rw [← hk]
        rfl

/-- The events end in `response.completed` exactly when the machine is completed. -/
structure Ends (events : List StreamEvent) (m : PluginResponsesMachine) : Prop where
  completed_iff : m.terminal = true ∧ m.status = .completed ↔
    ∃ last, events.getLast? = some last ∧ last.type = .completed
  response : ∀ last, events.getLast? = some last → last.type = .completed →
    last.response.map (·.output) = some m.outputs

theorem Ends.of_not {events : List StreamEvent}
    (hlast : ∀ e, events.getLast? = some e → e.type ≠ .completed)
    (hm : ¬(m.terminal = true ∧ m.status = .completed)) : Ends events m where
  completed_iff := ⟨fun h => absurd h hm, fun ⟨last, hget, htype⟩ => absurd htype (hlast last hget)⟩
  response := fun last hget htype => absurd htype (hlast last hget)

theorem ends_endTick (hlive : m.terminal = false) (taskStatus : String) (done : Bool) :
    Ends (m.endTick taskStatus done).1 (m.endTick taskStatus done).2 := by
  unfold endTick
  dsimp only
  split
  · refine ⟨⟨fun _ => ⟨_, rfl, rfl⟩, fun _ => ⟨rfl, rfl⟩⟩, fun last hlast _ => ?_⟩
    cases hlast
    rfl
  · split
    · refine .of_not (fun e he => ?_) fun h => ResponseStatus.noConfusion h.2
      cases he
      exact EventType.noConfusion
    · split
      · refine .of_not (fun e he => ?_) fun h => ResponseStatus.noConfusion h.2
        cases he
        exact EventType.noConfusion
      · refine .of_not (fun e he => ?_) fun h => ?_
        · cases he
        · rw [hlive] at h
          cases h.1

theorem type_eventAll : ∀ (events : List StreamEvent) (m : PluginResponsesMachine),
    (eventAll events m).1.map (·.type) = events.map (·.type) := by
  intro events
  induction events with
  | nil => exact fun m => rfl
  | cons event rest ih => exact fun m => congrArg (event.type :: ·) (ih (m.event event).2)

theorem applyEvent_ne_completed {e : StreamEvent} (he : e ∈ (m.applyEvent codec event text).1) :
    e.type ≠ .completed := by
  unfold applyEvent at he
  cases htype : event.type with
  | progress =>
    rw [htype] at he
    dsimp only at he
    split at he
    · rw [List.mem_singleton.mp he]
      exact EventType.noConfusion
    · exact absurd he List.not_mem_nil
  | output =>
    rw [htype] at he
    have hmem := List.mem_map_of_mem (f := (·.type)) he
    unfold appendOutput at hmem
    dsimp only at hmem
    rw [type_eventAll] at hmem
    intro hcompleted
    rw [hcompleted] at hmem
    unfold outputEvents at hmem
    simp at hmem
  | error =>
    rw [htype] at he
    rw [List.mem_singleton.mp he]
    exact EventType.noConfusion
  | other name =>
    rw [htype] at he
    exact absurd he List.not_mem_nil

theorem ends_applyEvents (codec : Codec) (taskStatus : String) (done : Bool) :
    ∀ {checked : List (ProtocolSemanticEvent × Option String)} {m : PluginResponsesMachine},
      m.started = true → m.terminal = false → (∀ pair ∈ checked, Checked pair) →
        Ends (applyEvents codec taskStatus done checked m).1
          (applyEvents codec taskStatus done checked m).2 := by
  intro checked
  induction checked with
  | nil => exact fun _ hlive _ => ends_endTick hlive taskStatus done
  | cons pair rest ih =>
    intro m hstarted hlive hchecked
    obtain ⟨event, text⟩ := pair
    have hgoes := (emits_applyEvent codec hstarted hlive (hchecked _ List.mem_cons_self)).2.2
    rw [applyEvents]
    dsimp only
    by_cases herror : event.type = .error
    · rw [if_pos herror]
      refine .of_not (fun e he => applyEvent_ne_completed (List.mem_of_getLast? he)) fun h => ?_
      unfold applyEvent at h
      rw [herror] at h
      exact ResponseStatus.noConfusion h.2
    · rw [if_neg herror]
      obtain ⟨hstarted', hlive'⟩ := hgoes herror
      have hrest := ih hstarted' hlive' fun pair hpair =>
        hchecked pair (List.mem_cons_of_mem _ hpair)
      dsimp only
      generalize applyEvents codec taskStatus done rest
        (m.applyEvent codec event text).2 = others at hrest ⊢
      by_cases hnone : others.1 = []
      · rw [hnone] at hrest ⊢
        rw [List.append_nil]
        refine .of_not (fun e he => applyEvent_ne_completed (List.mem_of_getLast? he)) fun h => ?_
        obtain ⟨last, hlast, -⟩ := hrest.completed_iff.mp h
        cases hlast
      · have hlast : ((m.applyEvent codec event text).1 ++ others.1).getLast? =
            others.1.getLast? := List.getLast?_append_of_ne_nil _ hnone
        constructor
        · rw [hlast]
          exact hrest.completed_iff
        · rw [hlast]
          exact hrest.response

theorem ends_applyTick {result : ProtocolEventResult} {taskStatus : String}
    {events : List StreamEvent} {m' : PluginResponsesMachine}
    (h : m.applyTick codec result taskStatus = (.ok events, m')) : Ends events m' := by
  unfold applyTick at h
  by_cases hstarted : m.started = false
  · rw [if_pos hstarted] at h
    cases h
  rw [if_neg hstarted] at h
  rw [Bool.not_eq_false] at hstarted
  by_cases hended : m.terminal = true
  · rw [if_pos hended] at h
    cases h
  rw [if_neg hended] at h
  rw [Bool.not_eq_true] at hended
  by_cases hfailure : equalFold (trimSpace taskStatus) "FAILURE" = true
  · rw [if_pos hfailure] at h
    cases h
    refine .of_not (fun e he => ?_) fun h => ResponseStatus.noConfusion h.2
    cases he
    exact EventType.noConfusion
  rw [if_neg hfailure] at h
  cases hcheck : checkEvents codec m.limits result.events with
  | error e =>
    rw [hcheck] at h
    cases h
  | ok checked =>
    rw [hcheck] at h
    dsimp only at h
    split at h
    · cases h
    · split at h
      · cases h
      · generalize pluginTaskStatus taskStatus = status at h
        have hends := ends_applyEvents codec taskStatus result.done (m := m.setTaskStatus status)
          hstarted hended (checked_checkEvents hcheck)
        generalize applyEvents codec taskStatus result.done checked
          (m.setTaskStatus status) = applied at h hends
        cases h
        exact hends

theorem withDefaults_withDefaults (limits : PluginProtocolLimits) :
    limits.withDefaults.withDefaults = limits.withDefaults := by
  have hone : ∀ limit default : Int, 0 < default →
      (if (if limit ≤ 0 then default else limit) ≤ 0 then default
        else if limit ≤ 0 then default else limit) = if limit ≤ 0 then default else limit := by
    intro limit default hpos
    by_cases hlimit : limit ≤ 0
    · rw [if_pos hlimit, if_neg (by omega)]
    · rw [if_neg hlimit, if_neg hlimit]
  unfold PluginProtocolLimits.withDefaults
  dsimp only
  rw [hone _ _ (by decide), hone _ _ (by decide), hone _ _ (by decide), hone _ _ (by decide)]

theorem new_new (taskID model : String) (createdAt : Int) (limits : PluginProtocolLimits) :
    PluginResponsesMachine.new (PluginResponsesMachine.new taskID model createdAt limits).taskID
      model createdAt limits.withDefaults = .new taskID model createdAt limits := by
  show PluginResponsesMachine.new (trimSpace taskID) model createdAt limits.withDefaults = _
  unfold PluginResponsesMachine.new
  rw [trimSpace_trimSpace, withDefaults_withDefaults]

/-- `CreatedEvent` and a tick end in `response.completed`, with these outputs. -/
def Completes (codec : Codec) (fresh : PluginResponsesMachine) (result : ProtocolEventResult)
    (taskStatus : String) (outputs : List Output) : Prop :=
  ∃ created m events m' last, fresh.createdEvent = (.ok created, m) ∧
    m.applyTick codec result taskStatus = (.ok events, m') ∧ events.getLast? = some last ∧
    last.type = .completed ∧ last.response.map (·.output) = some outputs

theorem finalFromEvents_iff (codec : Codec) (taskID model : String) (createdAt : Int)
    (limits : PluginProtocolLimits) (result : ProtocolEventResult) (taskStatus : String)
    (outputs : List Output) :
    (∃ response, ((PluginResponsesMachine.new taskID model createdAt limits).finalFromEvents codec
        result taskStatus).1 = .ok response ∧ response.output = outputs) ↔
      Completes codec (.new taskID model createdAt limits) result taskStatus outputs := by
  have hscratch : { PluginResponsesMachine.new
      (PluginResponsesMachine.new taskID model createdAt limits).taskID
      (PluginResponsesMachine.new taskID model createdAt limits).model
      (PluginResponsesMachine.new taskID model createdAt limits).createdAt
      (PluginResponsesMachine.new taskID model createdAt limits).limits with started := true } =
        { PluginResponsesMachine.new taskID model createdAt limits with started := true } :=
    congrArg (fun m : PluginResponsesMachine => { m with started := true })
      (new_new taskID model createdAt limits)
  have hfresh : (PluginResponsesMachine.new taskID model createdAt limits).started = false := rfl
  have hlive : (PluginResponsesMachine.new taskID model createdAt limits).terminal = false := rfl
  unfold finalFromEvents Completes createdEvent
  rw [if_neg (by rw [hfresh, hlive]; simp), hscratch]
  generalize PluginResponsesMachine.new taskID model createdAt limits = fresh at hfresh hlive ⊢
  rw [if_neg (by rw [hfresh]; simp), if_neg (by rw [hlive]; simp)]
  generalize hm : { fresh with started := true } = scratch
  dsimp only
  have hcreated : (scratch.responseEvent .created).2 = scratch.at (scratch.nextSequence + 1) := rfl
  obtain ⟨e, hfirst, hsecond⟩ | ⟨events, events', m', k, hfirst, hsecond⟩ :=
    applyTick_at codec scratch result taskStatus (scratch.nextSequence + 1)
  · rw [hfirst]
    constructor
    · rintro ⟨response, hresponse, -⟩
      cases hresponse
    · rintro ⟨created, m, events, m', last, hstart, htick, -⟩
      cases hstart
      rw [hcreated, hsecond] at htick
      cases htick
  · rw [hfirst]
    have hends := ends_applyTick hsecond
    dsimp only
    constructor
    · rintro ⟨response, hresponse, houtput⟩
      by_cases hterminal : m'.terminal = false
      · rw [if_pos hterminal] at hresponse
        cases hresponse
      rw [if_neg hterminal] at hresponse
      by_cases hstatus : m'.status ≠ .completed
      · rw [if_pos hstatus] at hresponse
        cases hresponse
      rw [if_neg hstatus] at hresponse
      rw [Bool.not_eq_false] at hterminal
      obtain ⟨last, hlast, htype⟩ := hends.completed_iff.mp ⟨hterminal, not_not.mp hstatus⟩
      refine ⟨_, _, events', m'.at k, last, rfl, ?_, hlast, htype, ?_⟩
      · rw [hcreated]
        exact hsecond
      · rw [hends.response last hlast htype, ← houtput, ← Except.ok.inj hresponse]
        rfl
    · rintro ⟨created, m, found, m'', last, hstart, htick, hlast, htype, houtput⟩
      cases hstart
      rw [hcreated, hsecond] at htick
      obtain ⟨hevents, rfl⟩ := Prod.mk.inj htick
      rw [← Except.ok.inj hevents] at hlast
      obtain ⟨hterminal, hstatus⟩ := hends.completed_iff.mpr ⟨last, hlast, htype⟩
      have hterminal' : ¬m'.terminal = false := by
        rw [Bool.not_eq_false]
        exact hterminal
      have hstatus' : ¬m'.status ≠ .completed := not_not.mpr hstatus
      rw [if_neg hterminal', if_neg hstatus']
      refine ⟨_, rfl, ?_⟩
      rw [hends.response last hlast htype] at houtput
      exact Option.some.inj houtput

end Retrieval

/-! ### The machine -/

/--
A call that fails leaves the machine as it is; the events of the others are well formed, stay
within the limits, and are summed up at the end; retrieval gives what the stream ends with.
-/
theorem pluginResponses_machine (codec : Codec) (taskID model : String) (createdAt : Int)
    (limits : PluginProtocolLimits) :
    (∀ (m : PluginResponsesMachine) (call : Call) (e : String),
      (m.call codec call).1 = .error e → (m.call codec call).2 = m) ∧
    (∀ calls : List Call,
      let s : Session := calls.foldl (Session.call codec) (.new taskID model createdAt limits)
      WellFormed s.emitted ∧
      (s.machine.outputs.length : Int) ≤ limits.withDefaults.maxOutputs ∧
      s.machine.totalOutputBytes = byteSum (texts s.machine.outputs) ∧
      (s.machine.totalOutputBytes : Int) ≤ limits.withDefaults.maxTotalOutputBytes ∧
      ∀ e ∈ s.emitted, e.type.isTerminal = true →
        e.response.map (fun response => texts response.output) =
          some (s.emitted.filterMap (·.doneText))) ∧
    ∀ (result : ProtocolEventResult) (taskStatus : String) (outputs : List Output),
      (∃ response, ((PluginResponsesMachine.new taskID model createdAt limits).finalFromEvents
        codec result taskStatus).1 = .ok response ∧ response.output = outputs) ↔
      Completes codec (.new taskID model createdAt limits) result taskStatus outputs := by
  refine ⟨fun m call e he => ?_, fun calls => ?_, finalFromEvents_iff codec taskID model createdAt
    limits⟩
  · have houtcome := outcome_call codec m call
    generalize m.call codec call = result at houtcome he ⊢
    cases houtcome with
    | refused e => rfl
    | emitted hlive hemits hwithin => cases he
  · obtain ⟨hemits, hwithin⟩ := @inv_run taskID model createdAt limits codec calls
    have htexts := hemits.texts
    have htotal := hemits.total
    have hlimits : (calls.foldl (Session.call codec)
        (.new taskID model createdAt limits)).machine.limits = limits.withDefaults := hemits.limits
    rw [show texts (PluginResponsesMachine.new taskID model createdAt limits).outputs = [] from rfl,
      List.nil_append] at htexts
    refine ⟨⟨_, hemits.reads, rfl⟩, ?_, ?_, ?_, fun e he hterminal => ?_⟩
    · exact hlimits ▸ hwithin.outputs
    · rw [htotal, htexts]
      exact Nat.zero_add _
    · exact hlimits ▸ hwithin.bytes
    · rw [(hemits.sums e he hterminal).2, htexts]

def numberCodec : Codec where
  isJsonString := fun _ => false
  unmarshalString := fun _ => none
  remarshal := some
  formatFloat := fun _ => ""
  quote := id

/-- A task that puts out one number and then succeeds. -/
def numberCalls : List Call :=
  [.createdEvent, .applyTick { events := [{ type := .output, data := "12" }] } "IN_PROGRESS",
    .applyTick { events := [], done := true } "SUCCESS"]

example :
    let s := numberCalls.foldl (Session.call numberCodec)
      (.new "t" "m" 0 defaultPluginProtocolLimits)
    s.emitted.map (·.type) = [.created, .outputItemAdded, .contentPartAdded, .outputTextDelta,
        .outputTextDone, .contentPartDone, .outputItemDone, .completed] ∧
      s.emitted.filterMap (·.doneText) = ["12"] ∧ s.machine.totalOutputBytes = 2 := by
  decide +kernel

end JulongApi.PluginProtocol
