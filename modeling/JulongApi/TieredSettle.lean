/-
The token counts a billing expression is given: `service/tiered_settle.go`.

`BuildTieredTokenParams` leaves in `p` and `c` what the expression does not price apart.
Its counts are float64s, and all of them are whole numbers: a count is an integer converted,
and the difference or sum of two whole floats is the nearest float to a whole number.
-/
import Mathlib
import JulongApi.Usage

namespace JulongApi.TieredSettle

/-! ### Whole float64s -/

/-- The float64 nearest to an integer: 53 bits are kept, and a tie goes to the even one. -/
def float64 (n : Int) : Int :=
  let a := n.natAbs
  let ulp := 2 ^ (Nat.log 2 a - 52)
  let down := a / ulp
  let up := ulp < 2 * (a % ulp) ∨ (ulp = 2 * (a % ulp) ∧ down % 2 = 1)
  n.sign * ((if up then down + 1 else down) * ulp : Nat)

/-! ### Token counts -/

structure TokenParams where
  p : Int
  c : Int
  len : Int
  cr : Int
  cc : Int
  cc1h : Int
  img : Int
  imgCR : Int
  imgO : Int
  ai : Int
  ao : Int
deriving DecidableEq, Repr

/-- The text and audio counts of a breakdown are taken out of the cached tokens one by one. -/
def withinRemaining : Int → List (Option Int) → Bool
  | _, [] => true
  | remaining, none :: rest => withinRemaining remaining rest
  | remaining, some count :: rest =>
    if count < 0 ∨ remaining < count then false else withinRemaining (remaining - count) rest

/-- The cached image tokens of a usage, if it reports a breakdown that is valid. -/
def cachedImageTokens (usage : Dto.Usage) : Option Int :=
  match usage.promptTokensDetails.cachedTokensDetails with
  | some ⟨text, some cachedImage, audio⟩ =>
    let cached := usage.promptTokensDetails.cachedTokens
    let image := usage.promptTokensDetails.imageTokens
    if 0 ≤ cachedImage ∧ cachedImage ≤ cached ∧ cachedImage ≤ image ∧
        cached ≤ usage.promptTokens ∧ image ≤ usage.promptTokens - (cached - cachedImage) ∧
        withinRemaining (cached - cachedImage) [text, audio] = true then
      some cachedImage
    else none
  | _ => none

/-- The image tokens that `img_cr` takes out of `cr` and `img`, where it does. -/
def splitImageTokens (usage : Dto.Usage) (isClaudeUsageSemantic : Bool)
    (usedVars : List String) : Int :=
  if "img_cr" ∈ usedVars ∧ isClaudeUsageSemantic = false then (cachedImageTokens usage).getD 0
  else 0

/-- The cache-creation counts behind `cc` and `cc1h`. -/
def cacheCreation (usage : Dto.Usage) : Int × Int :=
  if usage.usageSemantic = "anthropic" then
    (usage.claudeCacheCreation5mTokens, usage.claudeCacheCreation1hTokens)
  else (usage.promptTokensDetails.cacheCreationTokensTotal, 0)

/-- The counts whose variable is used are subtracted from the total, one after the other. -/
def subtractUsed (usedVars : List String) : Int → List (String × Int) → Int
  | total, [] => total
  | total, (name, count) :: rest =>
    subtractUsed usedVars (if name ∈ usedVars then float64 (total - count) else total) rest

def buildTieredTokenParams (usage : Dto.Usage) (isClaudeUsageSemantic : Bool)
    (usedVars : List String) : TokenParams :=
  let p := float64 usage.promptTokens
  let c := float64 usage.completionTokens
  let cc5m := float64 (cacheCreation usage).1
  let cc1h := float64 (cacheCreation usage).2
  let imgCR := float64 (splitImageTokens usage isClaudeUsageSemantic usedVars)
  -- Where nothing is split off, the difference is the count itself.
  let cr := float64 (float64 usage.promptTokensDetails.cachedTokens - imgCR)
  let img := float64 (float64 usage.promptTokensDetails.imageTokens - imgCR)
  let ai := float64 usage.promptTokensDetails.audioTokens
  let imgO := float64 usage.completionTokenDetails.imageTokens
  let ao := float64 usage.completionTokenDetails.audioTokens
  let inputLen :=
    if isClaudeUsageSemantic then float64 (float64 (float64 (p + cr) + cc5m) + cc1h) else p
  -- Claude's input has no cache reads in it: without a price of their own they are put back.
  let p' :=
    if isClaudeUsageSemantic then
      if "cr" ∈ usedVars then p else float64 (p + cr)
    else
      subtractUsed usedVars p
        [("cr", cr), ("cc", cc5m), ("cc1h", cc1h), ("img", img), ("img_cr", imgCR), ("ai", ai)]
  let c' :=
    if isClaudeUsageSemantic then c
    else subtractUsed usedVars c [("img_o", imgO), ("ao", ao)]
  { p := if p' < 0 then 0 else p'
    c := if c' < 0 then 0 else c'
    len := inputLen
    cr := cr
    cc := cc5m
    cc1h := cc1h
    img := img
    imgCR := imgCR
    imgO := imgO
    ai := ai
    ao := ao }

end JulongApi.TieredSettle
