import KalshiBot.Transport.RateLimit
import KalshiBot.Transport.Retry

/-! # Signed requests

`_request` up to the answer of the exchange, with its suspensions in front of the rate limiter. A
dry run goes the same way but for the budget and the network. The signature is a function of what
stands in a request here and of a fresh salt.
-/

namespace KalshiBot.Transport

open PythonText

set_option autoImplicit false

def apiPrefix : String := "/trade-api/v2"

/-- What is handed to `session.request`, with the tokens that its bucket has left. -/
structure SessionRequest (β : Type) where
  method : HttpMethod
  signedPath : String
  body : β
  timestampMs : ℤ
  tokensLeft : ℚ

structure RequestCall (β : Type) where
  method : HttpMethod
  path : String
  body : β
  dryRun : Bool := false

structure RequestReadings where
  acquireNs : ℤ
  timestampMs : ℤ

structure KalshiRestClient where
  rateLimiter : KalshiRateLimiter
  /-- Whether `_session` holds an open session. -/
  session : Bool := false

inductive RequestState (β : Type) where
  | queued
  | asleep
  | sent (request : SessionRequest β)
  | returned (response : PyValue)

namespace KalshiRestClient

variable {β : Type}

def bucket (client : KalshiRestClient) (call : RequestCall β) : TokenBucket :=
  client.rateLimiter.bucket call.method

def withBucket (client : KalshiRestClient) (call : RequestCall β) (bucket : TokenBucket) :
    KalshiRestClient :=
  { client with rateLimiter := client.rateLimiter.withBucket call.method bucket }

def assemble (client : KalshiRestClient) (call : RequestCall β) (r : RequestReadings) :
    KalshiRestClient × RequestState β :=
  ({ client with session := true },
    if call.dryRun then .returned (.dict [])
    else .sent
      { method := call.method
        signedPath := apiPrefix ++ call.path
        body := call.body
        timestampMs := r.timestampMs
        tokensLeft := (client.bucket call).tokens })

def proceed (client : KalshiRestClient) (call : RequestCall β) (r : RequestReadings) :
    TokenBucket × Acquiring → KalshiRestClient × RequestState β
  | (bucket, .granted) => (client.withBucket call bucket).assemble call r
  | (bucket, .asleep _) => (client.withBucket call bucket, .asleep)
  | (bucket, .queued) => (client.withBucket call bucket, .queued)

/-- `_request` up to its first suspension. -/
def openRequest (client : KalshiRestClient) (call : RequestCall β) (ticket : ℕ)
    (r : RequestReadings) : KalshiRestClient × RequestState β :=
  if call.dryRun then client.assemble call r
  else client.proceed call r ((client.bucket call).acquire ticket tokensPerRequest r.acquireNs)

def resumeRequest (client : KalshiRestClient) (call : RequestCall β) (ticket : ℕ)
    (r : RequestReadings) : RequestState β → KalshiRestClient × RequestState β
  | .queued =>
    client.proceed call r ((client.bucket call).resumeQueued ticket tokensPerRequest r.acquireNs)
  | .asleep =>
    client.proceed call r ((client.bucket call).resumeAsleep tokensPerRequest r.acquireNs, .granted)
  | state => (client, state)

def abandonRequest (client : KalshiRestClient) (call : RequestCall β) (ticket : ℕ) :
    RequestState β → KalshiRestClient
  | .queued => client.withBucket call ((client.bucket call).abandonQueued ticket)
  | .asleep => client.withBucket call (client.bucket call).abandonAsleep
  | .sent _ | .returned _ => client

/-- The same budgets are left, and the request is at the same place. -/
def SameBudget (a b : KalshiRestClient × RequestState β) : Prop :=
  a.1.rateLimiter = b.1.rateLimiter ∧ a.2 = b.2

section Congruence

variable {client client' : KalshiRestClient} (h : client.rateLimiter = client'.rateLimiter)
  (call : RequestCall β) (ticket : ℕ) (r : RequestReadings)

include h

theorem bucket_congr : client.bucket call = client'.bucket call := by
  rw [bucket, bucket, h]

theorem withBucket_congr (left : TokenBucket) :
    (client.withBucket call left).rateLimiter = (client'.withBucket call left).rateLimiter := by
  rw [withBucket, withBucket, h]

theorem assemble_congr : SameBudget (client.assemble call r) (client'.assemble call r) := by
  refine ⟨h, ?_⟩
  rw [assemble, assemble, bucket_congr h]

theorem proceed_congr (acquired : TokenBucket × Acquiring) :
    SameBudget (client.proceed call r acquired) (client'.proceed call r acquired) := by
  obtain ⟨left, acquiring⟩ := acquired
  cases acquiring with
  | granted => exact assemble_congr (withBucket_congr h call left) call r
  | asleep waitedSeconds => exact ⟨withBucket_congr h call left, rfl⟩
  | queued => exact ⟨withBucket_congr h call left, rfl⟩

theorem openRequest_congr :
    SameBudget (client.openRequest call ticket r) (client'.openRequest call ticket r) := by
  rw [openRequest, openRequest, bucket_congr h]
  split
  · exact assemble_congr h call r
  · exact proceed_congr h call r _

theorem resumeRequest_congr (state : RequestState β) :
    SameBudget (client.resumeRequest call ticket r state)
      (client'.resumeRequest call ticket r state) := by
  cases state with
  | queued =>
    rw [resumeRequest, resumeRequest, bucket_congr h]
    exact proceed_congr h call r _
  | asleep =>
    rw [resumeRequest, resumeRequest, bucket_congr h]
    exact proceed_congr h call r _
  | sent request => exact ⟨h, rfl⟩
  | returned response => exact ⟨h, rfl⟩

theorem abandonRequest_congr (state : RequestState β) :
    (client.abandonRequest call ticket state).rateLimiter =
      (client'.abandonRequest call ticket state).rateLimiter := by
  cases state with
  | queued =>
    rw [abandonRequest, abandonRequest, bucket_congr h]
    exact withBucket_congr h call _
  | asleep =>
    rw [abandonRequest, abandonRequest, bucket_congr h]
    exact withBucket_congr h call _
  | sent request => exact h
  | returned response => exact h

end Congruence

end KalshiRestClient

end KalshiBot.Transport
