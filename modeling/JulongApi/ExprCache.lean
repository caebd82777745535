/-
The cache of compiled expressions, and the calls that use it.

The cache is a map from digests to compiled expressions behind a lock, which every call
takes for one lookup or one store at a time.  Compiling happens outside of it.  So
`UsedVarsByHash` is three steps on the cache when it finds nothing at first: the lookup of
`compileEntryFromCacheByHash`, its store, and a lookup of its own after that.  Between any two
of them other calls may store, which empties a full cache first, and `InvalidateCache` may
empty it at any time.
-/
import JulongApi.Lib.Machine
import JulongApi.Lib.Table
import JulongApi.BillingExpr

namespace JulongApi

open BillingExpr

/-- `cache`, by digest. -/
abbrev ExprCache := Table (Prod.fst : String × CachedEntry → String)

def maxCacheSize : Nat := 256

namespace ExprCache

/-- `make(map[string]*cachedEntry, 64)`. -/
def empty : ExprCache := ⟨[], List.nodup_nil⟩

/-- The store at the end of `compileEntryFromCacheByHash`: a full cache is replaced first. -/
def store (cache : ExprCache) (hash : String) (entry : CachedEntry) : ExprCache :=
  if maxCacheSize ≤ cache.rows.length then empty.put (hash, entry) else cache.put (hash, entry)

end ExprCache

inductive ExprCall where
  /-- `UsedVarsByHash` before its first lookup -/
  | usedVars (exprStr hash : String)
  /-- `compileEntryFromCacheByHash` before its lookup, for `UsedVarsByHash` or somebody else -/
  | compiling (forVars : Bool) (exprStr hash : String)
  /-- ... and after it has compiled, before the store -/
  | storing (forVars : Bool) (exprStr hash : String) (entry : CachedEntry)
  /-- `UsedVarsByHash` before its second lookup -/
  | lookingUp (exprStr hash : String)
  /-- `UsedVarsByHash` has returned -/
  | returned (exprStr hash : String) (vars : Option (List String))
  /-- any other call is over -/
  | done

structure ExprCacheSystem where
  cache : ExprCache
  calls : List ExprCall

inductive ExprCacheAct where
  /-- a call of `UsedVarsByHash` -/
  | usedVars (exprStr hash : String)
  /-- a call of anything else that compiles through the cache -/
  | compile (exprStr hash : String)
  /-- call `i` goes on to the next release of the lock -/
  | advance (i : Nat)
  /-- `InvalidateCache` -/
  | invalidate
deriving DecidableEq

namespace ExprCacheSystem

def idle : ExprCacheSystem := ⟨ExprCache.empty, []⟩

def start (s : ExprCacheSystem) (call : ExprCall) : ExprCacheSystem :=
  { s with calls := s.calls ++ [call] }

def goOn (s : ExprCacheSystem) (i : Nat) (call : ExprCall) : ExprCacheSystem :=
  { s with calls := s.calls.set i call }

/-- Where the caller of `compileEntryFromCacheByHash` goes on with an entry. -/
def compiled (forVars : Bool) (exprStr hash : String) : ExprCall :=
  if forVars then .lookingUp exprStr hash else .done

/-- ... and with an error. -/
def failed (forVars : Bool) (exprStr hash : String) : ExprCall :=
  if forVars then .returned exprStr hash none else .done

/-- The lookup of `compileEntryFromCacheByHash`, and the compilation if it finds nothing. -/
def compileEntryFromCacheByHash (lib : ExprLib) (cache : ExprCache) (forVars : Bool)
    (exprStr hash : String) : ExprCall :=
  match cache.find hash with
  | some _ => compiled forVars exprStr hash
  | none =>
    match compileEntry lib exprStr with
    | .error _ => failed forVars exprStr hash
    | .ok entry => .storing forVars exprStr hash entry

def advance (lib : ExprLib) (s : ExprCacheSystem) (i : Nat) : ExprCall → Option ExprCacheSystem
  | .usedVars exprStr hash =>
    match s.cache.find hash with
    | some row => some (s.goOn i (.returned exprStr hash (some row.2.usedVars)))
    | none => some (s.goOn i (.compiling true exprStr hash))
  | .compiling forVars exprStr hash =>
    some (s.goOn i (compileEntryFromCacheByHash lib s.cache forVars exprStr hash))
  | .storing forVars exprStr hash entry =>
    some ({ s with cache := s.cache.store hash entry }.goOn i (compiled forVars exprStr hash))
  | .lookingUp exprStr hash =>
    some (s.goOn i (.returned exprStr hash ((s.cache.find hash).map fun row => row.2.usedVars)))
  | .returned _ _ _ => none
  | .done => none

def step (lib : ExprLib) (s : ExprCacheSystem) : ExprCacheAct → Option ExprCacheSystem
  | .usedVars exprStr hash =>
    some (s.start (if exprStr = "" then .returned exprStr hash none else .usedVars exprStr hash))
  | .compile exprStr hash => some (s.start (.compiling false exprStr hash))
  | .advance i =>
    match s.calls[i]? with
    | some call => s.advance lib i call
    | none => none
  | .invalidate => some { s with cache := ExprCache.empty }

end ExprCacheSystem

end JulongApi
