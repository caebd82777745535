/-
Second factors: `VerifyTwoFactorCode` of `service/security_verification.go`, and the row it works on
in `model/twofa.go`.

An attempt reads the row of its user, looks at the lock in what it has read, checks its code, and
then counts a failure by compare-and-set or writes a success.  Each statement is an action of its
own, and so is every look at the clock; time is in seconds.  Whether a TOTP code is right when it is
checked is part of the action; a backup code is right if it is that of a row not yet used.
-/
import JulongApi.Lib.Machine

namespace JulongApi.TwoFactor

def maxFailAttempts : Nat := 5

def lockoutDuration : Int := 300

def locked (lockedUntil : Option Int) (now : Int) : Bool :=
  match lockedUntil with
  | some time => now < time
  | none => false

/-- `TwoFABackupCode`, with the code that its hash stands for. -/
structure BackupCode where
  id : Int
  code : String
  isUsed : Bool
deriving DecidableEq, Repr

/-- What the input of an attempt is taken for. -/
inductive Input where
  | numeric
  /-- normalised -/
  | backup (code : String)
  | malformed
deriving DecidableEq, Repr

inductive Attempt where
  /-- it has read the row -/
  | loaded (input : Input) (lockedUntil : Option Int)
  /-- it has found the row not locked -/
  | checking (input : Input) (lockedUntil : Option Int)
  /-- its backup code was found -/
  | marking (codeId : Int)
  /-- `IncrementFailedAttempts`, with the tries that are left; whether a wrong code was checked -/
  | counting (wrong : Bool) (tries : Nat)
  /-- the same, after the row was read again -/
  | updating (wrong : Bool) (tries : Nat) (failedAttempts : Nat) (lockedUntil : Option Int)
  /-- the same, before the compare-and-set -/
  | comparing (wrong : Bool) (tries : Nat) (failedAttempts : Nat) (lockedUntil : Option Int)
      (now : Int)
  /-- its code was right -/
  | succeeding
  | done
deriving DecidableEq, Repr

/-- What has happened, for those who look at the row from outside. -/
inductive Event where
  /-- an attempt checked a wrong code, while the row was locked or not -/
  | wrong (locked : Bool)
  /-- an attempt succeeded, while the row was locked or not -/
  | success (locked : Bool)
  /-- a failure locked the row -/
  | lock
  /-- a backup code was accepted -/
  | accepted (codeId : Int)
deriving DecidableEq, Repr

structure State where
  clock : Int
  failedAttempts : Nat
  lockedUntil : Option Int
  codes : List BackupCode
  attempts : List Attempt
  /-- the newest first -/
  events : List Event
deriving DecidableEq, Repr

inductive Act where
  | tick (now : Int)
  /-- an attempt reads the row -/
  | load (input : Input)
  /-- the next statement of an attempt; whether its TOTP code is right -/
  | work (attempt : Nat) (right : Bool)
deriving DecidableEq, Repr

def State.put (s : State) (i : Nat) (attempt : Attempt) : State :=
  { s with attempts := s.attempts.set i attempt }

/-- The row of a backup code that is not used. -/
def State.matching (s : State) (code : String) : Option BackupCode :=
  s.codes.find? fun row => !row.isUsed && row.code = code

/-- A code is checked, and it is wrong. -/
def State.fail (s : State) (i : Nat) : State :=
  { s.put i (.counting true 5) with
    events := .wrong (locked s.lockedUntil s.clock) :: s.events }

/-- `ValidateTOTPAndUpdateUsage` and `ValidateBackupCodeAndUpdateUsage`, up to the code. -/
def State.check (s : State) (i : Nat) (right : Bool) : Input → State
  | .numeric => if right then s.put i .succeeding else s.fail i
  | .backup code =>
    match s.matching code with
    | some row => s.put i (.marking row.id)
    | none => s.fail i
  | .malformed => s.put i (.counting false 5)

def State.mark (s : State) (i : Nat) (codeId : Int) : State :=
  if s.codes.any fun row => row.id = codeId && !row.isUsed then
    { s.put i .succeeding with
      codes := s.codes.map fun row =>
        if row.id = codeId ∧ row.isUsed = false then { row with isUsed := true } else row
      events := .accepted codeId :: s.events }
  else s.put i (.counting false 5)

/-- The compare-and-set of `IncrementFailedAttempts`. -/
def State.increment (s : State) (i : Nat) (wrong : Bool) (tries failedAttempts : Nat)
    (lockedUntil : Option Int) (now : Int) : State :=
  if s.failedAttempts = failedAttempts ∧ locked s.lockedUntil now = false then
    if failedAttempts + 1 ≥ maxFailAttempts then
      { s.put i .done with
        failedAttempts := failedAttempts + 1
        lockedUntil := some (now + lockoutDuration)
        events := .lock :: s.events }
    else
      { s.put i .done with
        failedAttempts := failedAttempts + 1
        lockedUntil := lockedUntil }
  else s.put i (.counting wrong tries)

def State.work (s : State) (i : Nat) (right : Bool) : Option State :=
  match s.attempts[i]? with
  | some (.loaded input lockedUntil) =>
    some (if locked lockedUntil s.clock then s.put i .done
      else
        match input with
        | .malformed => s.put i (.counting false 5)
        | input => s.put i (.checking input lockedUntil))
  | some (.checking input lockedUntil) =>
    some (if locked lockedUntil s.clock then s.put i .done else s.check i right input)
  | some (.marking codeId) => some (s.mark i codeId)
  | some (.counting _ 0) => some (s.put i .done)
  | some (.counting wrong (tries + 1)) =>
    some (s.put i (.updating wrong tries s.failedAttempts s.lockedUntil))
  | some (.updating wrong tries failedAttempts lockedUntil) =>
    some (if locked lockedUntil s.clock then s.put i .done
      else s.put i (.comparing wrong tries failedAttempts lockedUntil s.clock))
  | some (.comparing wrong tries failedAttempts lockedUntil now) =>
    some (s.increment i wrong tries failedAttempts lockedUntil now)
  | some .succeeding =>
    some { s.put i .done with
      failedAttempts := 0
      lockedUntil := none
      events := .success (locked s.lockedUntil s.clock) :: s.events }
  | some .done | none => none

def step (s : State) : Act → Option State
  | .tick now => if now < s.clock then none else some { s with clock := now }
  | .load input => some { s with attempts := s.attempts ++ [.loaded input s.lockedUntil] }
  | .work i right => s.work i right

/-! ### What is claimed of the row -/

/-- The wrong codes that were checked since the row was locked or a success was written. -/
def fresh : List Event → Nat
  | .wrong _ :: rest => fresh rest + 1
  | .accepted _ :: rest => fresh rest
  | .success _ :: _ | .lock :: _ | [] => 0

def accepted (events : List Event) : List Int :=
  events.filterMap fun
    | .accepted codeId => some codeId
    | _ => none

/-- At most `maxFailAttempts` wrong codes are checked before a success or a lock, none is checked and
no attempt succeeds while the row is locked, and no backup code is accepted twice. -/
def State.Guarded (s : State) : Prop :=
  fresh s.events ≤ maxFailAttempts ∧
  .wrong true ∉ s.events ∧
  .success true ∉ s.events ∧
  (accepted s.events).Nodup

/-- An attempt that has read the row and may still check its code, or succeed. -/
def Attempt.opened : Attempt → Bool
  | .loaded _ _ | .checking _ _ | .marking _ | .succeeding => true
  | .counting _ _ | .updating _ _ _ _ | .comparing _ _ _ _ _ | .done => false

/-- An attempt that has checked a wrong code and not yet counted it. -/
def Attempt.waiting : Attempt → Bool
  | .counting wrong _ | .updating wrong _ _ _ | .comparing wrong _ _ _ _ => wrong
  | .loaded _ _ | .checking _ _ | .marking _ | .succeeding | .done => false

def State.waiting (s : State) : Nat := s.attempts.countP Attempt.waiting

/-- Whether a check finds the code wrong. -/
def State.findsWrong (s : State) (right : Bool) : Input → Bool
  | .numeric => !right
  | .backup code => (s.matching code).isNone
  | .malformed => false

/-- A wrong code is checked only while there is room for it in the counter beside those that wait to
be counted; none of these gives up; and the row is not locked while an attempt may still act on
having read it unlocked. -/
def Attempt.Orderly (s : State) (right : Bool) : Attempt → Prop
  | .checking input lockedUntil =>
    locked lockedUntil s.clock = false → s.findsWrong right input = true →
      s.waiting = 0 ∨ s.failedAttempts + s.waiting < maxFailAttempts
  | .counting wrong tries => tries = 0 → wrong = false
  | .comparing _ _ failedAttempts _ now =>
    s.failedAttempts = failedAttempts → locked s.lockedUntil now = false →
      maxFailAttempts ≤ failedAttempts + 1 → ∀ attempt ∈ s.attempts, attempt.opened = false
  | .loaded _ _ | .marking _ | .updating _ _ _ _ | .succeeding | .done => True

instance (s : State) (right : Bool) : ∀ attempt : Attempt, Decidable (attempt.Orderly s right)
  | .checking _ _ => inferInstanceAs (Decidable (_ → _ → _ ∨ _))
  | .counting wrong tries => inferInstanceAs (Decidable (tries = 0 → wrong = false))
  | .comparing _ _ _ _ _ => inferInstanceAs (Decidable (_ → _ → _ → ∀ attempt ∈ s.attempts, _))
  | .loaded _ _ | .marking _ | .updating _ _ _ _ | .succeeding | .done =>
    inferInstanceAs (Decidable True)

def Orderly (s : State) : Act → Prop
  | .work i right => ∀ attempt ∈ s.attempts[i]?, attempt.Orderly s right
  | .tick _ | .load _ => True

instance (s : State) : ∀ a : Act, Decidable (Orderly s a)
  | .work i right => inferInstanceAs (Decidable (∀ attempt ∈ s.attempts[i]?, attempt.Orderly s right))
  | .tick _ | .load _ => inferInstanceAs (Decidable True)

end JulongApi.TwoFactor
