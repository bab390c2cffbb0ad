import Mathlib.Algebra.Order.Field.Rat
import Mathlib.Data.Rat.Lemmas

/-! # The token buckets

`acquire` can be suspended at two places, in front of the bucket's lock and asleep behind it, so
it is cut there. The lock is first in, first out, and a sleeper keeps it.
-/

namespace KalshiBot.Transport

set_option autoImplicit false

def readTokensPerSecond : ℚ := 200
def writeTokensPerSecond : ℚ := 100
def tokensPerRequest : ℚ := 10
def burstSeconds : ℚ := 1

structure TokenBucket where
  ratePerSecond : ℚ
  capacity : ℚ
  tokens : ℚ
  refilledAtNs : ℤ
  locked : Bool := false
  /-- The tickets of those who wait for the lock. -/
  waiters : List ℕ := []

inductive Acquiring where
  | granted
  | asleep (waitedSeconds : ℚ)
  | queued

namespace TokenBucket

def full (ratePerSecond capacity : ℚ) (nowNs : ℤ) : TokenBucket where
  ratePerSecond
  capacity
  tokens := capacity
  refilledAtNs := nowNs

def refill (bucket : TokenBucket) (nowNs : ℤ) : TokenBucket :=
  { bucket with
    refilledAtNs := nowNs
    tokens := min bucket.capacity
      (bucket.tokens + (nowNs - bucket.refilledAtNs) / 1000000000 * bucket.ratePerSecond) }

/-- The end of the block under the lock. -/
def withdraw (bucket : TokenBucket) (cost : ℚ) : TokenBucket :=
  { bucket with tokens := max 0 (bucket.tokens - cost), locked := false }

/-- The block under the lock up to its sleep. -/
def enter (bucket : TokenBucket) (cost : ℚ) (nowNs : ℤ) : TokenBucket × Acquiring :=
  let bucket := bucket.refill nowNs
  if bucket.tokens < cost then
    ({ bucket with locked := true }, .asleep ((cost - bucket.tokens) / bucket.ratePerSecond))
  else (bucket.withdraw cost, .granted)

def acquire (bucket : TokenBucket) (ticket : ℕ) (cost : ℚ) (nowNs : ℤ) : TokenBucket × Acquiring :=
  if bucket.locked ∨ bucket.waiters ≠ [] then
    ({ bucket with waiters := bucket.waiters ++ [ticket] }, .queued)
  else bucket.enter cost nowNs

/-- A waiter goes on when it is the first and the lock is free. -/
def resumeQueued (bucket : TokenBucket) (ticket : ℕ) (cost : ℚ) (nowNs : ℤ) :
    TokenBucket × Acquiring :=
  if ¬bucket.locked ∧ bucket.waiters.head? = some ticket then
    { bucket with waiters := bucket.waiters.tail }.enter cost nowNs
  else (bucket, .queued)

def resumeAsleep (bucket : TokenBucket) (cost : ℚ) (nowNs : ℤ) : TokenBucket :=
  (bucket.refill nowNs).withdraw cost

/-- A cancelled waiter leaves the queue, a cancelled sleeper the lock. -/
def abandonQueued (bucket : TokenBucket) (ticket : ℕ) : TokenBucket :=
  { bucket with waiters := bucket.waiters.erase ticket }

def abandonAsleep (bucket : TokenBucket) : TokenBucket := { bucket with locked := false }

end TokenBucket

inductive HttpMethod where
  | get | post | delete
  deriving DecidableEq

structure KalshiRateLimiter where
  readBucket : TokenBucket
  writeBucket : TokenBucket

namespace KalshiRateLimiter

def started (nowNs : ℤ) : KalshiRateLimiter where
  readBucket := .full readTokensPerSecond (readTokensPerSecond * burstSeconds) nowNs
  writeBucket := .full writeTokensPerSecond (writeTokensPerSecond * burstSeconds) nowNs

def bucket (limiter : KalshiRateLimiter) (method : HttpMethod) : TokenBucket :=
  if method = .get then limiter.readBucket else limiter.writeBucket

def withBucket (limiter : KalshiRateLimiter) (method : HttpMethod) (bucket : TokenBucket) :
    KalshiRateLimiter :=
  if method = .get then { limiter with readBucket := bucket }
  else { limiter with writeBucket := bucket }

end KalshiRateLimiter

end KalshiBot.Transport
