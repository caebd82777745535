/-
User sessions: the rows of `model/user_session.go`.

A session is the server's record of a login.  It is active until it is revoked or expires, and its
refresh hash, the digest of the secret the browser holds, is exchanged for the next one each time
the browser refreshes its access token.
-/
import JulongApi.Lib.Table
import JulongApi.Strings

namespace JulongApi

inductive UserSessionStatus where
  | active
  | revoking
  | revoked
deriving DecidableEq, Repr

structure UserSession where
  sid : String
  userID : Int
  version : Int
  userAuthVersion : Int
  status : UserSessionStatus
  refreshHash : String
  previousRefreshHash : String
  previousValidUntil : Int
  loginMethod : String
  ip : String
  userAgent : String
  deviceID : String
  createdAt : Int
  lastActiveAt : Int
  expiresAt : Int
  revokedAt : Int
  revokedReason : String
deriving DecidableEq, Repr

abbrev UserSessionTable := Table UserSession.sid

namespace UserSession

def afterFind (session : UserSession) : UserSession :=
  { session with previousRefreshHash := trimSpace session.previousRefreshHash }

/-- The session is neither revoked nor expired. -/
def isActive (now : Int) (session : UserSession) : Bool :=
  decide (session.status = .active ∧ session.revokedAt = 0 ∧ now < session.expiresAt)

/-- The update that every revocation makes. -/
def revoke (now : Int) (reason : String) (session : UserSession) : UserSession :=
  { session with
    status := .revoked
    revokedAt := now
    revokedReason := reason }

@[simp] theorem sid_afterFind (session : UserSession) : session.afterFind.sid = session.sid := rfl

@[simp] theorem isActive_afterFind (now : Int) (session : UserSession) :
    isActive now session.afterFind = isActive now session := rfl

@[simp] theorem sid_revoke (now : Int) (reason : String) (session : UserSession) :
    (session.revoke now reason).sid = session.sid := rfl

theorem not_isActive {now : Int} {session : UserSession} (h : session.status = .revoked) :
    isActive now session = false := by
  simp [isActive, h]

end UserSession

end JulongApi
