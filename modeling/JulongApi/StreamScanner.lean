/-
A relayed stream: `relay/helper/stream_scanner.go`.

`StreamScannerHandler` runs three goroutines.  The scanner reads the upstream's body and takes
lines off it, the handler gets the payloads through a channel of ten, and the ping goroutine
writes to the client in between, under the mutex that the handler holds while it works.  All of
them watch a stop channel, the first two end it, and the function itself waits for the stop,
for a timeout or for the client to go, and then for the goroutines.

One action is one step of one of them; what the upstream sends in one piece, and what the client
and the clock do, is part of the action.  `Body.Close` and the timers leave nothing to see, for
a read may fail at any time, and so may the timeout come.  A line is a list of bytes.
-/
import JulongApi.Lib.LineScan
import JulongApi.Lib.Machine

namespace JulongApi.StreamScanner

abbrev Bytes := List UInt8

/-! ### `strings.TrimSpace`, on UTF-8 -/

/-- The white space of one byte: `\t`, `\n`, `\v`, `\f`, `\r` and the blank. -/
def space1 (a : UInt8) : Bool := a ∈ [0x09, 0x0A, 0x0B, 0x0C, 0x0D, 0x20]

/-- U+0085 and U+00A0. -/
def space2 (a b : UInt8) : Bool := a = 0xC2 ∧ (b = 0x85 ∨ b = 0xA0)

/-- U+1680, U+2000 to U+200A, U+2028, U+2029, U+202F, U+205F and U+3000. -/
def space3 (a b c : UInt8) : Bool :=
  (a = 0xE1 ∧ b = 0x9A ∧ c = 0x80) ∨
    (a = 0xE2 ∧ b = 0x80 ∧ ((0x80 ≤ c ∧ c ≤ 0x8A) ∨ c = 0xA8 ∨ c = 0xA9 ∨ c = 0xAF)) ∨
    (a = 0xE2 ∧ b = 0x81 ∧ c = 0x9F) ∨ (a = 0xE3 ∧ b = 0x80 ∧ c = 0x80)

/-- White space taken off the front, of encodings of two and three bytes as they are told. -/
def stripSpace (two : UInt8 → UInt8 → Bool) (three : UInt8 → UInt8 → UInt8 → Bool) :
    Bytes → Bytes
  | a :: b :: c :: rest =>
    if space1 a then stripSpace two three (b :: c :: rest)
    else if two a b then stripSpace two three (c :: rest)
    else if three a b c then stripSpace two three rest
    else a :: b :: c :: rest
  | [a, b] =>
    if space1 a then stripSpace two three [b] else if two a b then [] else [a, b]
  | [a] => if space1 a then [] else [a]
  | [] => []

/-- `strings.TrimSpace`: the back is the front, read backwards. -/
def trimSpace (data : Bytes) : Bytes :=
  (stripSpace (fun a b => space2 b a) (fun a b c => space3 c b a)
    (stripSpace space2 space3 data).reverse).reverse

/-! ### Lines -/

/-- `data:` -/
def dataPrefix : Bytes := [0x64, 0x61, 0x74, 0x61, 0x3A]

/-- `[DONE]` -/
def doneMarker : Bytes := [0x5B, 0x44, 0x4F, 0x4E, 0x45, 0x5D]

/-- `bufio.ScanLines` leaves out a carriage return at the end. -/
def dropCR (line : Bytes) : Bytes := if line.getLast? = some 0x0D then line.dropLast else line

def scanLines (body : Bytes) : List Bytes := (LineScan.lines 0x0A body).map dropCR

inductive Scanned where
  | skipped
  | payload (data : Bytes)
  | done
deriving DecidableEq, Repr

/-- The loop body of the scanner, up to the text replacements. -/
def scanned (line : Bytes) : Scanned :=
  if line.length < 6 then .skipped
  else if line.take 5 ≠ dataPrefix ∧ line.take 6 ≠ doneMarker then .skipped
  else
    let data := trimSpace (line.drop 5)
    if data = [] then .skipped
    else if doneMarker.isPrefixOf data then .done
    else .payload data

/-! ### The goroutines -/

structure Config where
  /-- `getScannerBufferSize` -/
  scannerBufferSize : Nat
  pingEnabled : Bool
  /-- `ApplyTextReplacementsJSON`; `none` where it fails -/
  applyTextReplacements : Bytes → Option Bytes

/-- The payload as the handler gets it. -/
def Config.transformed (cfg : Config) (data : Bytes) : Bytes :=
  (cfg.applyTextReplacements data).getD data

/-- `StreamEndReason`. -/
inductive EndReason where
  | done
  | eof
  | timeout
  | clientGone
  | scannerErr
  | handlerStop
  | pingFail
  | panicked
deriving DecidableEq, Repr

inductive Scanner where
  /-- in `scanner.Scan` -/
  | scanning
  /-- in the `select` on the data channel -/
  | sending (data : Bytes)
  /-- before `close(dataChan)` -/
  | closing
  /-- before `stop()` -/
  | stopping
  | exited
deriving DecidableEq, Repr

inductive Handler where
  | receiving
  /-- before the mutex -/
  | waiting (data : Bytes)
  /-- in `dataHandler`, with the mutex -/
  | running (data : Bytes)
  /-- before `stop()` -/
  | exiting
  | exited
deriving DecidableEq, Repr

inductive Ping where
  | idle
  /-- before the mutex -/
  | waiting
  /-- in `PingData`, with the mutex -/
  | writing
  | exited
deriving DecidableEq, Repr

inductive Main where
  | waiting
  /-- in `wg.Wait` of the cleanup -/
  | cleanup
  | returned
deriving DecidableEq, Repr

inductive ReadEnd where
  | eof
  | failed
deriving DecidableEq, Repr

structure State where
  /-- what the upstream has still to send -/
  upstream : Bytes
  /-- what has been read and not been scanned -/
  buffer : Bytes
  readEnd : Option ReadEnd
  scanner : Scanner
  dataChan : List Bytes
  closed : Bool
  handler : Handler
  ping : Ping
  main : Main
  /-- `stopChan` is closed -/
  stopped : Bool
  /-- `cancel()` has been called -/
  cancelled : Bool
  clientGone : Bool
  endReason : Option EndReason
  receivedResponseCount : Nat
  /-- the payloads `dataHandler` has been called with -/
  calls : List Bytes
  /-- ... and has returned from -/
  returned : List Bytes

/-- `StreamScannerHandler`, with its goroutines started. -/
def init (cfg : Config) (body : Bytes) : State where
  upstream := body
  buffer := []
  readEnd := none
  scanner := .scanning
  dataChan := []
  closed := false
  handler := .receiving
  ping := if cfg.pingEnabled then .idle else .exited
  main := .waiting
  stopped := false
  cancelled := false
  clientGone := false
  endReason := none
  receivedResponseCount := 0
  calls := []
  returned := []

inductive Act where
  /-- a read returns so many bytes -/
  | read (n : Nat)
  | readEOF
  | readFails
  /-- a line fills the buffer -/
  | lineTooLong
  /-- `scanner.Scan` has a line, and the loop body goes on with it -/
  | scan
  /-- `scanner.Scan` has no more -/
  | scanEnds
  | send
  /-- the scanner's `select` takes the stop or the cancelled context -/
  | sendStopped
  | closeChan
  | scannerStops
  | receive
  | receiveClosed
  | handlerLock
  /-- `dataHandler` returns; `Stop` and `Done` of the result have set a reason to end -/
  | handlerReturn (stop : Option EndReason)
  | handlerPanics
  | handlerExits
  | pingTick
  | pingLock
  | pingWritten (ok : Bool)
  /-- the ping goroutine sees the stop, the cancelled context or the client gone -/
  | pingStops
  /-- its thirty minutes are over -/
  | pingExpires
  | clientLeaves
  /-- the main wait takes the ticker -/
  | mainTimeout
  | mainStop
  | mainClientGone
  /-- `wg.Wait` returns -/
  | mainReturns
deriving DecidableEq, Repr

namespace State

/-- `SetEndReason`: the first one counts. -/
def setEndReason (s : State) (reason : EndReason) : State :=
  { s with endReason := s.endReason <|> some reason }

/-- `writeMutex` is free. -/
def unlocked (s : State) : Bool :=
  match s.handler, s.ping with
  | .running _, _ => false
  | _, .writing => false
  | _, _ => true

/-- The next line in the buffer, and the buffer after it. -/
def token (s : State) : Option (Bytes × Bytes) :=
  match LineScan.cutLine 0x0A s.buffer with
  | some (line, rest) => some (dropCR line, rest)
  | none => if s.readEnd.isSome ∧ s.buffer ≠ [] then some (dropCR s.buffer, []) else none

/-- One round of the scanner's loop, with a line. -/
def scanLine (cfg : Config) (s : State) (line rest : Bytes) : State :=
  let s := { s with buffer := rest }
  if s.stopped ∨ s.cancelled then { s with scanner := .closing }
  else
    match scanned line with
    | .skipped => s
    | .done => { s with scanner := .closing }.setEndReason .done
    | .payload data =>
      { s with
        scanner := .sending (cfg.transformed data)
        receivedResponseCount := s.receivedResponseCount + 1 }

/-- `cleanup()`, up to `wg.Wait`. -/
def cleanup (s : State) : State := { s with main := .cleanup, stopped := true, cancelled := true }

end State

open State

def step (cfg : Config) (s : State) : Act → Option State
  | .read n =>
    if s.scanner = .scanning ∧ s.token = none ∧ s.readEnd = none ∧ 0 < n ∧
        n ≤ s.upstream.length ∧ s.buffer.length + n ≤ cfg.scannerBufferSize then
      some { s with buffer := s.buffer ++ s.upstream.take n, upstream := s.upstream.drop n }
    else none
  | .readEOF =>
    if s.scanner = .scanning ∧ s.token = none ∧ s.readEnd = none ∧ s.upstream = [] ∧
        s.buffer.length < cfg.scannerBufferSize then
      some { s with readEnd := some .eof }
    else none
  | .readFails =>
    if s.scanner = .scanning ∧ s.token = none ∧ s.readEnd = none then
      some { s with readEnd := some .failed }
    else none
  | .lineTooLong =>
    if s.scanner = .scanning ∧ s.token = none ∧ s.readEnd = none ∧
        cfg.scannerBufferSize ≤ s.buffer.length then
      some ({ s with scanner := .closing }.setEndReason .scannerErr)
    else none
  | .scan =>
    if s.scanner = .scanning then
      match s.token with
      | some (line, rest) => some (s.scanLine cfg line rest)
      | none => none
    else none
  | .scanEnds =>
    if s.scanner = .scanning ∧ s.token = none then
      match s.readEnd with
      | some .eof => some ({ s with scanner := .closing }.setEndReason .eof)
      | some .failed => some ({ s with scanner := .closing }.setEndReason .scannerErr)
      | none => none
    else none
  | .send =>
    match s.scanner with
    | .sending data =>
      if s.dataChan.length < 10 then
        some { s with scanner := .scanning, dataChan := s.dataChan ++ [data] }
      else none
    | _ => none
  | .sendStopped =>
    match s.scanner with
    | .sending _ =>
      if s.stopped ∨ s.cancelled then some { s with scanner := .closing } else none
    | _ => none
  | .closeChan =>
    if s.scanner = .closing then some { s with scanner := .stopping, closed := true } else none
  | .scannerStops =>
    if s.scanner = .stopping then some { s with scanner := .exited, stopped := true } else none
  | .receive =>
    if s.handler = .receiving then
      match s.dataChan with
      | data :: rest => some { s with handler := .waiting data, dataChan := rest }
      | [] => none
    else none
  | .receiveClosed =>
    if s.handler = .receiving ∧ s.dataChan = [] ∧ s.closed then
      some { s with handler := .exiting }
    else none
  | .handlerLock =>
    match s.handler with
    | .waiting data =>
      if s.unlocked then some { s with handler := .running data, calls := s.calls ++ [data] }
      else none
    | _ => none
  | .handlerReturn stop =>
    match s.handler with
    | .running data =>
      let s := { s with returned := s.returned ++ [data] }
      match stop with
      | some reason => some ({ s with handler := .exiting }.setEndReason reason)
      | none => some { s with handler := .receiving }
    | _ => none
  | .handlerPanics =>
    match s.handler with
    | .running _ => some ({ s with handler := .exiting }.setEndReason .panicked)
    | _ => none
  | .handlerExits =>
    if s.handler = .exiting then some { s with handler := .exited, stopped := true } else none
  | .pingTick => if s.ping = .idle then some { s with ping := .waiting } else none
  | .pingLock =>
    if s.ping = .waiting ∧ s.unlocked then some { s with ping := .writing } else none
  | .pingWritten ok =>
    if s.ping = .writing then
      if ok then some { s with ping := .idle }
      else some ({ s with ping := .exited }.setEndReason .pingFail)
    else none
  | .pingStops =>
    if s.ping = .idle ∧ (s.stopped ∨ s.cancelled ∨ s.clientGone) then
      some { s with ping := .exited }
    else none
  | .pingExpires => if s.ping = .idle then some { s with ping := .exited } else none
  | .clientLeaves => if s.clientGone then none else some { s with clientGone := true }
  | .mainTimeout =>
    if s.main = .waiting then some (s.setEndReason .timeout).cleanup else none
  | .mainStop => if s.main = .waiting ∧ s.stopped then some s.cleanup else none
  | .mainClientGone =>
    if s.main = .waiting ∧ s.clientGone then some (s.setEndReason .clientGone).cleanup else none
  | .mainReturns =>
    if s.main = .cleanup ∧ s.scanner = .exited ∧ s.handler = .exited ∧ s.ping = .exited then
      some { s with main := .returned }
    else none

/-- Nothing from outside cuts the stream short: no read fails and no line is too long, no
timeout fires, the client stays and the handler goes on. -/
def Act.normal : Act → Bool
  | .readFails => false
  | .lineTooLong => false
  | .handlerReturn stop => stop.isNone
  | .handlerPanics => false
  | .clientLeaves => false
  | .mainTimeout => false
  | _ => true

/-- What a goroutine does of itself when it can; only a ping has to be told by the clock. -/
def Act.own : Act → Bool
  | .lineTooLong => true
  | .pingTick => false
  | .pingExpires => false
  | a => a.normal

/-- The run has come to its end: nobody has anything left to do. -/
def Quiet (cfg : Config) (s : State) : Prop := ∀ a : Act, a.own = true → step cfg s a = none

/-! ### What the handler is to be given -/

/-- A line that says the stream is done, with the prefix or without it. -/
def isDone (line : Bytes) : Bool :=
  doneMarker.isPrefixOf line ||
    (dataPrefix.isPrefixOf line && doneMarker.isPrefixOf (trimSpace (line.drop 5)))

/-- The payload of a data line, if it has one. -/
def payload (line : Bytes) : Option Bytes :=
  if dataPrefix.isPrefixOf line ∧ trimSpace (line.drop 5) ≠ [] then
    some (trimSpace (line.drop 5))
  else none

/-- The payloads of the data lines before the first marker. -/
def payloadsBeforeDone (lines : List Bytes) : List Bytes :=
  (lines.takeWhile fun line => !isDone line).filterMap payload

/-- No line is a marker without the prefix, up to the first one with it. -/
def noBareMarker (lines : List Bytes) : Prop :=
  ∀ line ∈ lines.takeWhile (fun line => scanned line ≠ .done), ¬doneMarker.isPrefixOf line

end JulongApi.StreamScanner
