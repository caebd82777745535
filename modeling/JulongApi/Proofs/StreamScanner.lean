/-
What the handler of a stream is given.

The goroutines lose nothing: in a run that nothing cuts short, what the handler has been called
with, what it has in hand, what is in the channel and what the scanner has still to scan make up
one and the same list (`Inv.account`), and the stop channel is closed only after the data channel
is closed and, by the handler, drained.  When nobody has anything left to do the function has
returned, and all of that list has been handled (`Inv.quiet`, `Inv.handled`); and every run
comes to that point, as far as the clock lets it (`own_bounded`).

So the handler is given what the scanner makes of the lines of the body (`handler_given_iff`).
-/
import JulongApi.Proofs.StreamLines

namespace JulongApi.StreamScanner

/-! ### Nothing is lost between the goroutines -/

/-- What the scanner sends for the lines of a body, as the handler gets it. -/
def Config.deliver (cfg : Config) (lines : List Bytes) : List Bytes :=
  (delivered lines).map cfg.transformed

namespace State

def todo (cfg : Config) (s : State) : List Bytes :=
  match s.scanner with
  | .scanning => cfg.deliver (scanLines (s.buffer ++ s.upstream))
  | .sending data => data :: cfg.deliver (scanLines (s.buffer ++ s.upstream))
  | _ => []

/-- What the handler has received and has not been called with. -/
def inHand (s : State) : List Bytes :=
  match s.handler with
  | .waiting data => [data]
  | _ => []

def atWork (s : State) : List Bytes :=
  match s.handler with
  | .running data => [data]
  | _ => []

end State

structure Inv (cfg : Config) (all : List Bytes) (s : State) : Prop where
  /-- Every payload is somewhere, once and in order. -/
  account : s.calls ++ s.inHand ++ s.dataChan ++ s.todo cfg = all
  returned : s.returned ++ s.atWork = s.calls
  /-- The body has ended only where the upstream has nothing more to send. -/
  readEnd : s.readEnd = none ∨ s.readEnd = some .eof ∧ s.upstream = []
  closed : s.closed = true ↔ s.scanner = .stopping ∨ s.scanner = .exited
  /-- The handler leaves a closed and empty channel behind. -/
  drained : s.handler = .exiting ∨ s.handler = .exited → s.closed = true ∧ s.dataChan = []
  stopped : s.stopped = true ↔ s.scanner = .exited ∨ s.handler = .exited
  cancelled : s.cancelled = true → s.stopped = true
  leaving : s.main ≠ .waiting → s.stopped = true
  connected : s.clientGone = false
  joined : s.main = .returned → s.scanner = .exited ∧ s.handler = .exited ∧ s.ping = .exited

theorem Inv.init (cfg : Config) (body : Bytes) :
    Inv cfg (cfg.deliver (scanLines body)) (init cfg body) where
  account := rfl
  returned := rfl
  readEnd := .inl rfl
  closed := by simp [StreamScanner.init]
  drained := by simp [StreamScanner.init]
  stopped := by simp [StreamScanner.init]
  cancelled := by simp [StreamScanner.init]
  leaving := by simp [StreamScanner.init]
  connected := rfl
  joined := by simp [StreamScanner.init]

variable {line rest : Bytes}

section

variable {cfg : Config} {all : List Bytes} {s t : State}

theorem Inv.running (h : Inv cfg all s)
    (hscanner : s.scanner = .scanning ∨ ∃ data, s.scanner = .sending data) :
    s.stopped = false ∧ s.cancelled = false ∧ s.main ≠ .returned := by
  have hopen : s.closed = false := by
    rw [← Bool.not_eq_true, h.closed]
    obtain hscan | ⟨data, hsend⟩ := hscanner
    · simp [hscan]
    · simp [hsend]
  have hnot : s.stopped = false := by
    rw [← Bool.not_eq_true, h.stopped]
    rintro (hexited | hexited)
    · obtain hscan | ⟨data, hsend⟩ := hscanner
      · rw [hscan] at hexited
        cases hexited
      · rw [hsend] at hexited
        cases hexited
    · have hclosed := (h.drained (.inr hexited)).1
      rw [hopen] at hclosed
      cases hclosed
  refine ⟨hnot, ?_, fun hmain => ?_⟩
  · rw [← Bool.not_eq_true]
    intro hcancelled
    have hstopped := h.cancelled hcancelled
    rw [hnot] at hstopped
    cases hstopped
  · have hstopped := h.leaving (by rw [hmain]; simp)
    rw [hnot] at hstopped
    cases hstopped

theorem Inv.scannerGoesOn (h : Inv cfg all s) {buffer upstream : Bytes} {readEnd : Option ReadEnd}
    {scanner : Scanner} {endReason : Option EndReason} {count : Nat}
    (hbefore : s.scanner = .scanning)
    (hreadEnd : readEnd = none ∨ readEnd = some .eof ∧ upstream = [])
    (hafter : scanner ≠ .stopping ∧ scanner ≠ .exited)
    (htodo : State.todo cfg { s with buffer, upstream, readEnd, scanner, endReason } = s.todo cfg) :
    Inv cfg all
      { s with buffer, upstream, readEnd, scanner, endReason, receivedResponseCount := count } := by
  have hopen : s.closed = false := by
    rw [← Bool.not_eq_true, h.closed, hbefore]
    simp
  obtain ⟨hstopped, -, hmain⟩ := h.running (.inl hbefore)
  have hhandler : s.handler ≠ .exited := by
    intro hexited
    rw [h.stopped.mpr (.inr hexited)] at hstopped
    cases hstopped
  exact
    { account := by
        rw [← h.account, ← htodo]
        rfl
      returned := h.returned
      readEnd := hreadEnd
      closed := by simp [hopen, hafter.1, hafter.2]
      drained := h.drained
      stopped := by simp [hstopped, hafter.2, hhandler]
      cancelled := h.cancelled
      leaving := h.leaving
      connected := h.connected
      joined := fun hreturned => absurd hreturned hmain }

theorem token_spec (h : s.readEnd = none ∨ s.readEnd = some .eof ∧ s.upstream = [])
    (htoken : s.token = some (line, rest)) :
    scanLines (s.buffer ++ s.upstream) = line :: scanLines (rest ++ s.upstream) := by
  unfold State.token at htoken
  unfold scanLines
  split at htoken
  · rename_i raw rest' hcut
    cases htoken
    rw [LineScan.lines_of_cutLine hcut, List.map_cons]
  · rename_i hcut
    obtain ⟨hlast, ⟨⟩⟩ := Option.ite_none_right_eq_some.mp htoken
    obtain hnone | ⟨-, hupstream⟩ := h
    · rw [hnone] at hlast
      exact absurd hlast.1 (by simp)
    · rw [hupstream, List.append_nil, LineScan.lines_of_not_cutLine hcut hlast.2]
      rfl

theorem buffer_of_no_token (hend : s.readEnd.isSome = true) (htoken : s.token = none) :
    s.buffer = [] := by
  unfold State.token at htoken
  split at htoken
  · cases htoken
  · split at htoken
    · cases htoken
    · rename_i hlast
      by_contra hne
      exact hlast ⟨hend, hne⟩

theorem Inv.scanLine (h : Inv cfg all s) (hscanning : s.scanner = .scanning)
    (htoken : s.token = some (line, rest)) : Inv cfg all (s.scanLine cfg line rest) := by
  obtain ⟨hstopped, hcancelled, -⟩ := h.running (.inl hscanning)
  have hlines := token_spec h.readEnd htoken
  have htodo : s.todo cfg = cfg.deliver (line :: scanLines (rest ++ s.upstream)) := by
    unfold State.todo
    rw [hscanning, ← hlines]
  unfold State.scanLine
  dsimp only
  rw [if_neg (by simp [hstopped, hcancelled])]
  unfold Config.deliver at htodo
  rw [delivered_cons] at htodo
  cases hline : scanned line with
  | skipped =>
    rw [hline] at htodo
    refine h.scannerGoesOn hscanning h.readEnd (by simp [hscanning]) ?_
    rw [htodo]
    unfold State.todo Config.deliver
    rw [hscanning]
  | done =>
    rw [hline] at htodo
    refine h.scannerGoesOn hscanning h.readEnd (by simp) ?_
    rw [htodo]
    rfl
  | payload data =>
    rw [hline] at htodo
    refine h.scannerGoesOn hscanning h.readEnd (by simp) ?_
    rw [htodo]
    rfl

theorem Inv.withPing (h : Inv cfg all s) (hping : s.ping ≠ .exited) (ping : Ping)
    (endReason : Option EndReason) : Inv cfg all { s with ping, endReason } :=
  { h with
    account := h.account
    returned := h.returned
    joined := fun hreturned => absurd (h.joined hreturned).2.2 hping }

theorem Inv.read (h : Inv cfg all s) {n : Nat} (hstep : step cfg s (.read n) = some t) :
    Inv cfg all t := by
  obtain ⟨⟨hscanning, -, hopen, -, -, -⟩, ⟨⟩⟩ := Option.ite_none_right_eq_some.mp hstep
  refine h.scannerGoesOn hscanning (.inl hopen) (by simp [hscanning]) ?_
  unfold State.todo
  rw [hscanning]
  dsimp only
  rw [List.append_assoc, List.take_append_drop]

theorem Inv.readEOF (h : Inv cfg all s) (hstep : step cfg s .readEOF = some t) :
    Inv cfg all t := by
  obtain ⟨⟨hscanning, -, -, hupstream, -⟩, ⟨⟩⟩ := Option.ite_none_right_eq_some.mp hstep
  exact h.scannerGoesOn hscanning (.inr ⟨rfl, hupstream⟩) (by simp [hscanning]) rfl

theorem Inv.scanEnds (h : Inv cfg all s) (hstep : step cfg s .scanEnds = some t) :
    Inv cfg all t := by
  obtain ⟨⟨hscanning, htoken⟩, hstep⟩ := Option.ite_none_right_eq_some.mp hstep
  obtain hnone | ⟨heof, hupstream⟩ := h.readEnd
  · rw [hnone] at hstep
    cases hstep
  · rw [heof] at hstep
    cases hstep
    have hbuffer := buffer_of_no_token (by rw [heof]; rfl) htoken
    refine h.scannerGoesOn hscanning (.inr ⟨rfl, hupstream⟩) (by simp) ?_
    unfold State.todo
    rw [hscanning, hbuffer, hupstream]
    rfl

theorem Inv.send (h : Inv cfg all s) (hstep : step cfg s .send = some t) : Inv cfg all t := by
  dsimp only [step] at hstep
  split at hstep
  · rename_i data hsending
    split at hstep
    · cases hstep
      obtain ⟨hstopped, -, hmain⟩ := h.running (.inr ⟨data, hsending⟩)
      have hopen : s.closed = false := by
        rw [← Bool.not_eq_true, h.closed, hsending]
        simp
      have hnot : ¬(s.handler = .exiting ∨ s.handler = .exited) := by
        intro hdone
        rw [(h.drained hdone).1] at hopen
        cases hopen
      refine { h with
        account := ?_
        returned := h.returned
        closed := by simp [hopen]
        drained := fun hdone => absurd hdone hnot
        stopped := ?_
        joined := fun hreturned => absurd hreturned hmain }
      · have haccount := h.account
        unfold State.todo at haccount ⊢
        rw [hsending] at haccount
        rw [← haccount]
        simp [State.inHand]
      · have hexited : s.handler ≠ .exited := fun hdone => hnot (.inr hdone)
        simp [hstopped, hexited]
    · cases hstep
  · cases hstep

theorem Inv.closeChan (h : Inv cfg all s) (hstep : step cfg s .closeChan = some t) :
    Inv cfg all t := by
  obtain ⟨hclosing, ⟨⟩⟩ := Option.ite_none_right_eq_some.mp hstep
  have haccount := h.account
  unfold State.todo at haccount
  rw [hclosing] at haccount
  refine { h with
    account := haccount
    returned := h.returned
    closed := by simp
    drained := fun hdone => ⟨rfl, (h.drained hdone).2⟩
    stopped := ?_
    joined := fun hreturned => ?_ }
  · rw [h.stopped, hclosing]
    simp
  · have hexited := (h.joined hreturned).1
    rw [hclosing] at hexited
    cases hexited

theorem Inv.scannerStops (h : Inv cfg all s) (hstep : step cfg s .scannerStops = some t) :
    Inv cfg all t := by
  obtain ⟨hstopping, ⟨⟩⟩ := Option.ite_none_right_eq_some.mp hstep
  have haccount := h.account
  unfold State.todo at haccount
  rw [hstopping] at haccount
  have hclosed : s.closed = true := h.closed.mpr (.inl hstopping)
  exact { h with
    account := haccount
    returned := h.returned
    closed := by simp [hclosed]
    stopped := by simp
    cancelled := fun _ => rfl
    leaving := fun _ => rfl
    joined := fun hreturned => ⟨rfl, (h.joined hreturned).2⟩ }

theorem Inv.handlerGoesOn (h : Inv cfg all s) (hbefore : s.handler ≠ .exiting ∧ s.handler ≠ .exited)
    {handler : Handler} {dataChan calls returned : List Bytes}
    (hexited : handler ≠ .exited)
    (hdrained : handler = .exiting → s.closed = true ∧ dataChan = [])
    (haccount : calls ++ State.inHand { s with handler } ++ dataChan =
      s.calls ++ s.inHand ++ s.dataChan)
    (hreturned : returned ++ State.atWork { s with handler } = calls) :
    Inv cfg all { s with handler, dataChan, calls, returned } := by
  refine { h with
    account := ?_
    returned := hreturned
    drained := fun hdone => hdrained (hdone.resolve_right hexited)
    stopped := ?_
    joined := fun hjoined => absurd (h.joined hjoined).2.1 hbefore.2 }
  · rw [← h.account, ← haccount]
    rfl
  · rw [h.stopped]
    simp [hbefore.2, hexited]

theorem Inv.receive (h : Inv cfg all s) (hstep : step cfg s .receive = some t) : Inv cfg all t := by
  obtain ⟨hreceiving, hstep⟩ := Option.ite_none_right_eq_some.mp hstep
  split at hstep
  · rename_i data rest hchan
    cases hstep
    have hreturned := h.returned
    unfold State.atWork at hreturned
    rw [hreceiving] at hreturned
    refine h.handlerGoesOn (by simp [hreceiving]) (by simp) (by simp) ?_ hreturned
    rw [hchan]
    simp [State.inHand, hreceiving]
  · cases hstep

theorem Inv.receiveClosed (h : Inv cfg all s) (hstep : step cfg s .receiveClosed = some t) :
    Inv cfg all t := by
  obtain ⟨⟨hreceiving, hempty, hclosed⟩, ⟨⟩⟩ := Option.ite_none_right_eq_some.mp hstep
  have hreturned := h.returned
  unfold State.atWork at hreturned
  rw [hreceiving] at hreturned
  refine h.handlerGoesOn (by simp [hreceiving]) (by simp) (fun _ => ⟨hclosed, hempty⟩) ?_
    hreturned
  simp [State.inHand, hreceiving]

theorem Inv.handlerLock (h : Inv cfg all s) (hstep : step cfg s .handlerLock = some t) :
    Inv cfg all t := by
  dsimp only [step] at hstep
  split at hstep
  · rename_i data hwaiting
    split at hstep
    · cases hstep
      have hreturned := h.returned
      unfold State.atWork at hreturned
      rw [hwaiting] at hreturned
      dsimp only at hreturned
      rw [List.append_nil] at hreturned
      refine h.handlerGoesOn (by simp [hwaiting]) (by simp) (by simp) ?_ ?_
      · simp [State.inHand, hwaiting]
      · rw [hreturned]
        rfl
    · cases hstep
  · cases hstep

theorem Inv.handlerReturn (h : Inv cfg all s) (hstep : step cfg s (.handlerReturn none) = some t) :
    Inv cfg all t := by
  dsimp only [step] at hstep
  split at hstep
  · rename_i data hrunning
    cases hstep
    have hreturned := h.returned
    unfold State.atWork at hreturned
    rw [hrunning] at hreturned
    refine h.handlerGoesOn (by simp [hrunning]) (by simp) (by simp) ?_ ?_
    · simp [State.inHand, hrunning]
    · simpa [State.atWork] using hreturned
  · cases hstep

theorem Inv.handlerExits (h : Inv cfg all s) (hstep : step cfg s .handlerExits = some t) :
    Inv cfg all t := by
  obtain ⟨hexiting, ⟨⟩⟩ := Option.ite_none_right_eq_some.mp hstep
  have hreturned := h.returned
  have haccount := h.account
  unfold State.atWork at hreturned
  unfold State.inHand at haccount
  rw [hexiting] at hreturned haccount
  exact { h with
    account := haccount
    returned := hreturned
    drained := fun _ => h.drained (.inl hexiting)
    stopped := by simp
    cancelled := fun _ => rfl
    leaving := fun _ => rfl
    joined := fun hjoined => ⟨(h.joined hjoined).1, rfl, (h.joined hjoined).2.2⟩ }

theorem Inv.mainStop (h : Inv cfg all s) (hstep : step cfg s .mainStop = some t) :
    Inv cfg all t := by
  obtain ⟨hcond, ⟨⟩⟩ := Option.ite_none_right_eq_some.mp hstep
  exact { h with
    account := h.account
    returned := h.returned
    stopped := iff_of_true rfl (h.stopped.mp hcond.2)
    cancelled := fun _ => rfl
    leaving := fun _ => rfl
    joined := fun hreturned => by cases hreturned }

theorem Inv.step (h : Inv cfg all s) {a : Act} (hnormal : a.normal = true)
    (hstep : step cfg s a = some t) : Inv cfg all t := by
  cases a with
  | read n => exact h.read hstep
  | readEOF => exact h.readEOF hstep
  | readFails => cases hnormal
  | lineTooLong => cases hnormal
  | scan =>
    obtain ⟨hscanning, hstep⟩ := Option.ite_none_right_eq_some.mp hstep
    split at hstep
    · rename_i line rest htoken
      cases hstep
      exact h.scanLine hscanning htoken
    · cases hstep
  | scanEnds => exact h.scanEnds hstep
  | send => exact h.send hstep
  | sendStopped =>
    dsimp only [StreamScanner.step] at hstep
    split at hstep
    · rename_i data hsending
      obtain ⟨hstopped, hcancelled, -⟩ := h.running (.inr ⟨data, hsending⟩)
      rw [if_neg (by simp [hstopped, hcancelled])] at hstep
      cases hstep
    · cases hstep
  | closeChan => exact h.closeChan hstep
  | scannerStops => exact h.scannerStops hstep
  | receive => exact h.receive hstep
  | receiveClosed => exact h.receiveClosed hstep
  | handlerLock => exact h.handlerLock hstep
  | handlerReturn stop =>
    cases stop with
    | none => exact h.handlerReturn hstep
    | some reason => cases hnormal
  | handlerPanics => cases hnormal
  | handlerExits => exact h.handlerExits hstep
  | pingTick =>
    obtain ⟨hidle, ⟨⟩⟩ := Option.ite_none_right_eq_some.mp hstep
    exact h.withPing (by simp [hidle]) .waiting s.endReason
  | pingLock =>
    obtain ⟨hcond, ⟨⟩⟩ := Option.ite_none_right_eq_some.mp hstep
    exact h.withPing (by simp [hcond.1]) .writing s.endReason
  | pingWritten ok =>
    obtain ⟨hwriting, hstep⟩ := Option.ite_none_right_eq_some.mp hstep
    cases ok with
    | true =>
      cases hstep
      exact h.withPing (by simp [hwriting]) .idle s.endReason
    | false =>
      cases hstep
      exact h.withPing (by simp [hwriting]) .exited _
  | pingStops =>
    obtain ⟨hcond, ⟨⟩⟩ := Option.ite_none_right_eq_some.mp hstep
    exact h.withPing (by simp [hcond.1]) .exited s.endReason
  | pingExpires =>
    obtain ⟨hidle, ⟨⟩⟩ := Option.ite_none_right_eq_some.mp hstep
    exact h.withPing (by simp [hidle]) .exited s.endReason
  | clientLeaves => cases hnormal
  | mainTimeout => cases hnormal
  | mainStop => exact h.mainStop hstep
  | mainClientGone =>
    dsimp only [StreamScanner.step] at hstep
    rw [if_neg (by simp [h.connected])] at hstep
    cases hstep
  | mainReturns =>
    obtain ⟨hcond, ⟨⟩⟩ := Option.ite_none_right_eq_some.mp hstep
    exact { h with
      account := h.account
      returned := h.returned
      leaving := fun _ => h.leaving (by simp [hcond.1])
      joined := fun _ => hcond.2 }

/-! ### The end of a run -/

theorem Quiet.unlocked (hquiet : Quiet cfg s) :
    (∀ data, s.handler ≠ .running data) ∧ s.ping ≠ .writing ∧ s.unlocked = true := by
  have hhandler : ∀ data, s.handler ≠ .running data := by
    intro data hrunning
    have hstep := hquiet (.handlerReturn none) rfl
    simp [StreamScanner.step, hrunning] at hstep
  have hping : s.ping ≠ .writing := by
    intro hwriting
    have hstep := hquiet (.pingWritten true) rfl
    simp [StreamScanner.step, hwriting] at hstep
  refine ⟨hhandler, hping, ?_⟩
  unfold State.unlocked
  split
  · rename_i data hrunning
    exact absurd hrunning (hhandler data)
  · exact absurd ‹_› hping
  · rfl

/-- The scanner is never at a loss: there is a line, or more to read, or an end. -/
theorem Quiet.not_scanning (hquiet : Quiet cfg s) : s.scanner ≠ .scanning := by
  intro hscanning
  have hread : s.token = none → s.readEnd = none → False := by
    intro htoken hopen
    by_cases hroom : s.buffer.length < cfg.scannerBufferSize
    · by_cases hupstream : s.upstream = []
      · have hstep := hquiet .readEOF rfl
        simp [StreamScanner.step, hscanning, htoken, hopen, hupstream, hroom] at hstep
      · have hlength : 1 ≤ s.upstream.length := List.length_pos_of_ne_nil hupstream
        have hfits : s.buffer.length + 1 ≤ cfg.scannerBufferSize := hroom
        have hstep := hquiet (.read 1) rfl
        simp [StreamScanner.step, hscanning, htoken, hopen, hlength, hfits] at hstep
    · have hfull : cfg.scannerBufferSize ≤ s.buffer.length := Nat.le_of_not_lt hroom
      have hstep := hquiet .lineTooLong rfl
      simp [StreamScanner.step, hscanning, htoken, hopen, hfull] at hstep
  cases htoken : s.token with
  | some token =>
    have hstep := hquiet .scan rfl
    simp [StreamScanner.step, hscanning, htoken] at hstep
  | none =>
    cases hend : s.readEnd with
    | none => exact hread htoken hend
    | some readEnd =>
      have hstep := hquiet .scanEnds rfl
      cases readEnd <;> simp [StreamScanner.step, hscanning, htoken, hend] at hstep

theorem Quiet.handler (hquiet : Quiet cfg s) :
    s.handler = .receiving ∧ s.dataChan = [] ∧ s.closed = false ∨ s.handler = .exited := by
  obtain ⟨hrunning, -, hunlocked⟩ := hquiet.unlocked
  cases hhandler : s.handler with
  | receiving =>
    left
    refine ⟨rfl, ?_, ?_⟩
    · cases hchan : s.dataChan with
      | nil => rfl
      | cons data rest =>
        have hstep := hquiet .receive rfl
        simp [StreamScanner.step, hhandler, hchan] at hstep
    · rw [← Bool.not_eq_true]
      intro hclosed
      cases hchan : s.dataChan with
      | nil =>
        have hstep := hquiet .receiveClosed rfl
        simp [StreamScanner.step, hhandler, hchan, hclosed] at hstep
      | cons data rest =>
        have hstep := hquiet .receive rfl
        simp [StreamScanner.step, hhandler, hchan] at hstep
  | waiting data =>
    have hstep := hquiet .handlerLock rfl
    simp [StreamScanner.step, hhandler, hunlocked] at hstep
  | running data => exact absurd hhandler (hrunning data)
  | exiting =>
    have hstep := hquiet .handlerExits rfl
    simp [StreamScanner.step, hhandler] at hstep
  | exited => exact .inr rfl

theorem Inv.quiet (h : Inv cfg all s) (hquiet : Quiet cfg s) : s.main = .returned := by
  have hscanner : s.scanner = .exited := by
    cases hscanner : s.scanner with
    | scanning => exact absurd hscanner hquiet.not_scanning
    | sending data =>
      -- the handler would take what fills the channel
      obtain ⟨-, hempty, -⟩ | hexited := hquiet.handler
      · have hstep := hquiet .send rfl
        simp [StreamScanner.step, hscanner, hempty] at hstep
      · have hclosed := h.closed.mp (h.drained (.inr hexited)).1
        simp [hscanner] at hclosed
    | closing =>
      have hstep := hquiet .closeChan rfl
      simp [StreamScanner.step, hscanner] at hstep
    | stopping =>
      have hstep := hquiet .scannerStops rfl
      simp [StreamScanner.step, hscanner] at hstep
    | exited => rfl
  have hclosed : s.closed = true := h.closed.mpr (.inr hscanner)
  have hstopped : s.stopped = true := h.stopped.mpr (.inl hscanner)
  have hhandler : s.handler = .exited := by
    obtain ⟨-, -, hopen⟩ | hexited := hquiet.handler
    · rw [hclosed] at hopen
      cases hopen
    · exact hexited
  obtain ⟨-, hwriting, hunlocked⟩ := hquiet.unlocked
  have hping : s.ping = .exited := by
    cases hping : s.ping with
    | idle =>
      have hstep := hquiet .pingStops rfl
      simp [StreamScanner.step, hping, hstopped] at hstep
    | waiting =>
      have hstep := hquiet .pingLock rfl
      simp [StreamScanner.step, hping, hunlocked] at hstep
    | writing => exact absurd hping hwriting
    | exited => rfl
  cases hmain : s.main with
  | waiting =>
    have hstep := hquiet .mainStop rfl
    simp [StreamScanner.step, hmain, hstopped] at hstep
  | cleanup =>
    have hstep := hquiet .mainReturns rfl
    simp [StreamScanner.step, hmain, hscanner, hhandler, hping] at hstep
  | returned => rfl

theorem Inv.quiet_of_returned (h : Inv cfg all s) (hreturned : s.main = .returned) :
    Quiet cfg s := by
  obtain ⟨hscanner, hhandler, hping⟩ := h.joined hreturned
  intro a hown
  cases a <;> simp [StreamScanner.step, hscanner, hhandler, hping, hreturned]
  cases hown

theorem Inv.handled (h : Inv cfg all s) (hreturned : s.main = .returned) :
    s.calls = all ∧ s.returned = s.calls := by
  obtain ⟨hscanner, hhandler, -⟩ := h.joined hreturned
  have haccount := h.account
  have hatWork := h.returned
  unfold State.inHand State.todo at haccount
  unfold State.atWork at hatWork
  rw [hhandler, hscanner, (h.drained (.inr hhandler)).2] at haccount
  rw [hhandler] at hatWork
  simp only [List.append_nil] at haccount hatWork
  exact ⟨haccount, hatWork⟩

end

/-! ### Every run ends -/

def Scanner.work : Scanner → Nat
  | .scanning => 3
  | .sending _ => 7
  | .closing => 2
  | .stopping => 1
  | .exited => 0

def Handler.work : Handler → Nat
  | .receiving => 2
  | .waiting _ => 4
  | .running _ => 3
  | .exiting => 1
  | .exited => 0

def Ping.work : Ping → Nat
  | .idle => 1
  | .waiting => 3
  | .writing => 2
  | .exited => 0

def Main.work : Main → Nat
  | .waiting => 2
  | .cleanup => 1
  | .returned => 0

def bodyWork : Option ReadEnd → Nat
  | none => 1
  | some _ => 0

/-- The steps a state has left: what a byte, a payload and a goroutine may still take. -/
def State.work (s : State) : Nat :=
  7 * s.upstream.length + 6 * s.buffer.length + bodyWork s.readEnd +
    s.scanner.work + 3 * s.dataChan.length + s.handler.work + s.ping.work + s.main.work

theorem token_length {s : State} (h : s.token = some (line, rest)) :
    rest.length < s.buffer.length := by
  unfold State.token at h
  split at h
  · rename_i hcut
    cases h
    exact LineScan.cutLine_length hcut
  · obtain ⟨hlast, ⟨⟩⟩ := Option.ite_none_right_eq_some.mp h
    exact List.length_pos_of_ne_nil hlast.2

theorem work_scanLine {cfg : Config} {s : State} (hscanning : s.scanner = .scanning)
    (h : s.token = some (line, rest)) : (s.scanLine cfg line rest).work + 1 ≤ s.work := by
  have hlength := token_length h
  have hbefore : s.scanner.work = 3 := by
    rw [hscanning]
    rfl
  have hclosing : Scanner.closing.work = 2 := rfl
  have hsending : ∀ data, (Scanner.sending data).work = 7 := fun _ => rfl
  unfold State.scanLine State.work
  dsimp only
  split
  · dsimp only
    omega
  · split
    · dsimp only
      omega
    · dsimp only [State.setEndReason]
      omega
    · dsimp only
      rw [hsending]
      omega

/-- A step takes work off a state; only the clock brings more of it, two for a ping. -/
theorem work_step {cfg : Config} {s t : State} {a : Act} (h : step cfg s a = some t) :
    t.work + (if a.own then 1 else 0) ≤ s.work + (if a = .pingTick then 2 else 0) := by
  cases a with
  | read n =>
    obtain ⟨⟨-, -, -, hpos, hle, -⟩, ⟨⟩⟩ := Option.ite_none_right_eq_some.mp h
    simp [State.work, Act.own, Act.normal]
    omega
  | scan =>
    obtain ⟨hscanning, h⟩ := Option.ite_none_right_eq_some.mp h
    split at h
    · rename_i line rest htoken
      cases h
      simpa [Act.own, Act.normal] using work_scanLine hscanning htoken
    · cases h
  | scanEnds =>
    obtain ⟨hcond, h⟩ := Option.ite_none_right_eq_some.mp h
    split at h <;> cases h <;>
      simp [State.work, State.setEndReason, Act.own, Act.normal, Scanner.work, hcond.1]
  | send =>
    dsimp only [step] at h
    split at h
    · rename_i data hsending
      split at h
      · cases h
        simp [State.work, Act.own, Act.normal, Scanner.work, hsending]
        omega
      · cases h
    · cases h
  | sendStopped =>
    dsimp only [step] at h
    split at h
    · rename_i data hsending
      split at h
      · cases h
        simp [State.work, Act.own, Act.normal, Scanner.work, hsending]
      · cases h
    · cases h
  | receive =>
    obtain ⟨hreceiving, h⟩ := Option.ite_none_right_eq_some.mp h
    split at h
    · rename_i data rest hchan
      cases h
      simp [State.work, Act.own, Act.normal, Handler.work, hreceiving, hchan]
      omega
    · cases h
  | handlerLock =>
    dsimp only [step] at h
    split at h
    · rename_i data hwaiting
      split at h
      · cases h
        simp [State.work, Act.own, Act.normal, Handler.work, hwaiting]
      · cases h
    · cases h
  | handlerReturn stop =>
    dsimp only [step] at h
    split at h
    · rename_i data hrunning
      cases stop <;> cases h <;>
        simp [State.work, State.setEndReason, Act.own, Act.normal, Handler.work, hrunning]
    · cases h
  | handlerPanics =>
    dsimp only [step] at h
    split at h
    · rename_i data hrunning
      cases h
      simp [State.work, State.setEndReason, Act.own, Act.normal, Handler.work, hrunning]
    · cases h
  | pingWritten ok =>
    obtain ⟨hwriting, h⟩ := Option.ite_none_right_eq_some.mp h
    cases ok <;> cases h <;>
      simp [State.work, State.setEndReason, Act.own, Act.normal, Ping.work, hwriting]
  | clientLeaves =>
    dsimp only [step] at h
    split at h
    · cases h
    · cases h
      simp [State.work, Act.own, Act.normal]
  | readEOF =>
    obtain ⟨hcond, ⟨⟩⟩ := Option.ite_none_right_eq_some.mp h
    simp [State.work, Act.own, Act.normal, bodyWork, hcond.2.2.1]
  | readFails =>
    obtain ⟨hcond, ⟨⟩⟩ := Option.ite_none_right_eq_some.mp h
    simp [State.work, Act.own, Act.normal, bodyWork, hcond.2.2]
  | lineTooLong =>
    obtain ⟨hcond, ⟨⟩⟩ := Option.ite_none_right_eq_some.mp h
    simp [State.work, Act.own, State.setEndReason, Scanner.work, hcond.1]
  | closeChan =>
    obtain ⟨hclosing, ⟨⟩⟩ := Option.ite_none_right_eq_some.mp h
    simp [State.work, Act.own, Act.normal, Scanner.work, hclosing]
  | scannerStops =>
    obtain ⟨hstopping, ⟨⟩⟩ := Option.ite_none_right_eq_some.mp h
    simp [State.work, Act.own, Act.normal, Scanner.work, hstopping]
  | receiveClosed =>
    obtain ⟨hcond, ⟨⟩⟩ := Option.ite_none_right_eq_some.mp h
    simp [State.work, Act.own, Act.normal, Handler.work, hcond.1]
  | handlerExits =>
    obtain ⟨hexiting, ⟨⟩⟩ := Option.ite_none_right_eq_some.mp h
    simp [State.work, Act.own, Act.normal, Handler.work, hexiting]
  | pingTick =>
    obtain ⟨hidle, ⟨⟩⟩ := Option.ite_none_right_eq_some.mp h
    simp [State.work, Act.own, Ping.work, hidle]
    omega
  | pingLock =>
    obtain ⟨hcond, ⟨⟩⟩ := Option.ite_none_right_eq_some.mp h
    simp [State.work, Act.own, Act.normal, Ping.work, hcond.1]
  | pingStops =>
    obtain ⟨hcond, ⟨⟩⟩ := Option.ite_none_right_eq_some.mp h
    simp [State.work, Act.own, Act.normal, Ping.work, hcond.1]
  | pingExpires =>
    obtain ⟨hidle, ⟨⟩⟩ := Option.ite_none_right_eq_some.mp h
    simp [State.work, Act.own, Ping.work, hidle]
  | mainTimeout =>
    obtain ⟨hmain, ⟨⟩⟩ := Option.ite_none_right_eq_some.mp h
    simp [State.work, Act.own, Act.normal, State.setEndReason, State.cleanup, Main.work, hmain]
  | mainStop =>
    obtain ⟨hcond, ⟨⟩⟩ := Option.ite_none_right_eq_some.mp h
    simp [State.work, Act.own, Act.normal, State.cleanup, Main.work, hcond.1]
  | mainClientGone =>
    obtain ⟨hcond, ⟨⟩⟩ := Option.ite_none_right_eq_some.mp h
    simp [State.work, Act.own, Act.normal, State.setEndReason, State.cleanup, Main.work, hcond.1]
  | mainReturns =>
    obtain ⟨hcond, ⟨⟩⟩ := Option.ite_none_right_eq_some.mp h
    simp [State.work, Act.own, Act.normal, Main.work, hcond.1]

/-- However a run goes, its goroutines take no more steps of their own than the body and the
pings give them. -/
theorem own_bounded {cfg : Config} {acts : List Act} : ∀ {s t : State},
    Machine.run (step cfg) s acts = some t →
      acts.countP Act.own ≤ s.work + 2 * acts.count .pingTick := by
  induction acts with
  | nil =>
    intro s t _
    simp
  | cons a rest ih =>
    intro s t hrun
    obtain ⟨mid, hstep, hrest⟩ := Machine.run_cons _ hrun
    have hwork := work_step hstep
    have hbound := ih hrest
    rw [List.countP_cons, List.count_cons]
    by_cases htick : a = .pingTick
    · rw [if_pos htick] at hwork
      simp only [htick, beq_self_eq_true, if_true] at hwork ⊢
      omega
    · rw [if_neg htick] at hwork
      have hne : (a == Act.pingTick) = false := by simpa using htick
      rw [hne]
      simp only [Bool.false_eq_true, if_false]
      omega

/-- However the goroutines interleave, and whatever fails, a body gives them nine steps of their own,
seven more for each of its bytes, and two for each ping. -/
theorem steps_bounded {cfg : Config} {body : Bytes} {acts : List Act} {s : State}
    (hrun : Machine.run (step cfg) (init cfg body) acts = some s) :
    acts.countP Act.own ≤ 7 * body.length + 9 + 2 * acts.count .pingTick := by
  have hbound := own_bounded hrun
  have hwork : (init cfg body).work ≤ 7 * body.length + 9 := by
    unfold init State.work
    cases cfg.pingEnabled <;> simp [bodyWork, Scanner.work, Handler.work, Ping.work, Main.work]
  omega

theorem inv_run {cfg : Config} {body : Bytes} {acts : List Act} {s : State}
    (hrun : Machine.run (step cfg) (init cfg body) acts = some s)
    (hnormal : ∀ a ∈ acts, a.normal = true) :
    Inv cfg (cfg.deliver (scanLines body)) s :=
  Machine.run_invariant (Inv cfg (cfg.deliver (scanLines body)))
    (fun _ _ _ hinv hcond hstep => hinv.step hcond hstep) acts _ s (Inv.init cfg body)
    (Machine.meets_of_forall _ fun a ha _ => hnormal a ha) hrun

/-- At the end of a run that nothing cuts short the function has returned and the handler has
returned from every call, and it has been called for the payloads before the first marker, each
once and in order, if and only if no marker comes without its prefix before that. -/
theorem handler_given_iff (cfg : Config) (body : Bytes) (acts : List Act) (s : State)
    (hrun : Machine.run (step cfg) (init cfg body) acts = some s)
    (hnormal : ∀ a ∈ acts, a.normal = true) (hquiet : Quiet cfg s) :
    s.main = .returned ∧ s.returned = s.calls ∧
        s.calls = (payloadsBeforeDone (scanLines body)).map cfg.transformed ↔
      noBareMarker (scanLines body) := by
  have hinv := inv_run hrun hnormal
  have hreturned := hinv.quiet hquiet
  obtain ⟨hcalls, hdone⟩ := hinv.handled hreturned
  rw [and_iff_right hreturned, and_iff_right hdone, hcalls]
  exact delivered_eq_iff cfg (scanLines body)

def plain : Config where
  scannerBufferSize := 67108864
  pingEnabled := false
  applyTextReplacements := fun _ => none

def ending : List Act :=
  [.readEOF, .scanEnds, .closeChan, .scannerStops, .receiveClosed, .handlerExits, .mainStop,
    .mainReturns]

def onePayload : List Act := [.scan, .send, .receive, .handlerLock, .handlerReturn none]

def pinging : Config := { plain with pingEnabled := true }

def greeting : Bytes :=
  [0x64, 0x61, 0x74, 0x61, 0x3A, 0x20, 0x78, 0x0A, 0x64, 0x61, 0x74, 0x61, 0x3A, 0x20, 0x79, 0x0A,
    0x64, 0x61, 0x74, 0x61, 0x3A, 0x20, 0x5B, 0x44, 0x4F, 0x4E, 0x45, 0x5D, 0x0A]

/-- Two payloads and the marker in two reads, the first of which ends within a line; a ping is
written while the first payload waits for the mutex. -/
def pingedRun : List Act :=
  [.read 11, .scan, .send, .pingTick, .receive, .pingLock, .pingWritten true, .handlerLock,
    .read 18, .scan, .send, .handlerReturn none, .receive, .scan, .closeChan, .scannerStops,
    .pingStops, .handlerLock, .handlerReturn none, .receiveClosed, .handlerExits, .mainStop,
    .mainReturns]

theorem greeting_given : ∃ s,
    Machine.run (step pinging) (init pinging greeting) pingedRun = some s ∧
      s.main = .returned ∧ s.returned = s.calls ∧
        s.calls = (payloadsBeforeDone (scanLines greeting)).map pinging.transformed := by
  have hnormal : ∀ a ∈ pingedRun, a.normal = true := by decide
  have hbare : noBareMarker (scanLines greeting) := by
    unfold noBareMarker
    decide
  obtain ⟨s, hrun, hreturned⟩ : ∃ s,
      Machine.run (step pinging) (init pinging greeting) pingedRun = some s ∧
        s.main = .returned := ⟨_, rfl, rfl⟩
  have hquiet := (inv_run hrun hnormal).quiet_of_returned hreturned
  exact ⟨s, hrun, (handler_given_iff pinging greeting _ s hrun hnormal hquiet).mpr hbare⟩

theorem steps_bounded_greeting : ∃ s,
    Machine.run (step pinging) (init pinging greeting) pingedRun = some s ∧
      pingedRun.countP Act.own ≤ 214 := by
  refine ⟨_, rfl, ?_⟩
  exact @steps_bounded pinging greeting pingedRun _ rfl

def bareDone : Bytes :=
  [0x64, 0x61, 0x74, 0x61, 0x3A, 0x20, 0x61, 0x0A, 0x5B, 0x44, 0x4F, 0x4E, 0x45, 0x5D, 0x0A]

/-- The handler is called with what is left of the marker, a bracket. -/
theorem bare_marker_given : ∃ s,
    Machine.run (step plain) (init plain bareDone)
        (.read 15 :: onePayload ++ onePayload ++ ending) = some s ∧
      (∀ a ∈ Act.read 15 :: onePayload ++ onePayload ++ ending, a.normal = true) ∧
      Quiet plain s ∧ s.calls = [[0x61], [0x5D]] ∧
      (payloadsBeforeDone (scanLines bareDone)).map plain.transformed = [[0x61]] := by
  have hnormal : ∀ a ∈ Act.read 15 :: onePayload ++ onePayload ++ ending, a.normal = true := by
    decide
  obtain ⟨s, hrun, hreturned, hcalls⟩ : ∃ s,
      Machine.run (step plain) (init plain bareDone)
          (.read 15 :: onePayload ++ onePayload ++ ending) = some s ∧
        s.main = .returned ∧ s.calls = [[0x61], [0x5D]] := ⟨_, rfl, rfl, rfl⟩
  exact ⟨s, hrun, hnormal, (inv_run hrun hnormal).quiet_of_returned hreturned, hcalls, by decide⟩

end JulongApi.StreamScanner
