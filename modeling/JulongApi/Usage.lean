/-
Token usage as upstreams report it: `relaykit/dto/openai_response.go`.

A pointer field tells a count that was not reported from a reported zero; it is an `Option`.
-/
import Mathlib.Init

namespace JulongApi.Dto

/-- Subsets of the cached tokens. -/
structure CachedTokenDetails where
  textTokens : Option Int
  imageTokens : Option Int
  audioTokens : Option Int
deriving DecidableEq, Repr

structure InputTokenDetails where
  cachedTokens : Int := 0
  cachedTokensDetails : Option CachedTokenDetails := none
  cachedCreationTokens : Int := 0
  /-- OpenAI's own cache-write count. -/
  cacheWriteTokens : Int := 0
  audioTokens : Int := 0
  imageTokens : Int := 0
deriving DecidableEq, Repr

structure OutputTokenDetails where
  audioTokens : Int := 0
  imageTokens : Int := 0
deriving DecidableEq, Repr

/-- What `Cost any` holds. -/
inductive UsageCost where
  | float64 (v : Rat)
  | int (n : Int)
  /-- nothing, or a value of another type -/
  | other
deriving DecidableEq, Repr

structure Usage where
  promptTokens : Int := 0
  completionTokens : Int := 0
  usageSemantic : String := ""
  usageSource : String := ""
  promptTokensDetails : InputTokenDetails := {}
  completionTokenDetails : OutputTokenDetails := {}
  claudeCacheCreation5mTokens : Int := 0
  claudeCacheCreation1hTokens : Int := 0
  cost : UsageCost := .other
deriving DecidableEq, Repr

/-- `CacheCreationTokensTotal`: whichever field the upstream reported cache writes in. -/
def InputTokenDetails.cacheCreationTokensTotal (d : InputTokenDetails) : Int :=
  let total := max d.cacheWriteTokens d.cachedCreationTokens
  if total < 0 then 0 else total

theorem InputTokenDetails.cacheCreationTokensTotal_nonneg (d : InputTokenDetails) :
    0 ≤ d.cacheCreationTokensTotal := by
  unfold cacheCreationTokensTotal
  dsimp only
  split <;> omega

end JulongApi.Dto
