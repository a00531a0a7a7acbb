import McpAssistant.Foundations.Interleaving

/-!
# One-time tokens

The billing client signs every request with a short-lived token.  A worker
verifies the token by its own clock and then asks Redis to set a marker for the
token's id, which only the first request can do while the marker lives.
Requests may be replayed, reordered and handled by any number of workers at
once.  Instants are microseconds.
-/

namespace McpAssistant.Auth.JtiReplay

open Foundations.Interleaving List

def second : Int := 1000000

def tokenTtlSeconds : Int := 30

/-- The claims that verification reads, and the others as they were encoded. -/
structure Claims where
  iss : String
  aud : String
  iat : Int
  exp : Int
  jti : String
  others : String
deriving DecidableEq

structure Token where
  claims : Claims
  secret : String
deriving DecidableEq

structure RagConfig where
  jwtSecret : String
  jwtIss : String := "laravel-billing"
  jwtAud : String := "rag-service"

def timestamp (instant : Int) : Int :=
  instant / second

def mintToken (config : RagConfig) (instant : Int) (uuid others : String) : Except String Token :=
  if config.jwtSecret = "" then
    .error "RAG JWT secret is not configured."
  else
    let now := timestamp instant
    .ok {
      claims := {
        iss := config.jwtIss
        aud := config.jwtAud
        iat := now
        exp := now + tokenTtlSeconds
        jti := uuid
        others := others }
      secret := config.jwtSecret }

def leewaySeconds : Int := 10

def maxJtiLength : Nat := 128

/-- What the service verifies against, and whether it can make a principal of
the other claims. -/
structure Settings where
  ragJwtSecret : String
  ragJwtIss : String
  ragJwtAud : String
  makesPrincipal : String → Bool

/-- A token issued in the future is refused, and so is one that has expired, both
with some leeway. -/
def inTime (now : Int) (claims : Claims) : Bool :=
  claims.iat * second ≤ now + leewaySeconds * second &&
    now - leewaySeconds * second < claims.exp * second

def decode (settings : Settings) (now : Int) (token : Token) : Bool :=
  token.secret = settings.ragJwtSecret && token.claims.iss = settings.ragJwtIss &&
    token.claims.aud = settings.ragJwtAud && inTime now token.claims

def parsesJti (claims : Claims) : Bool :=
  claims.jti ≠ "" && claims.jti.length ≤ maxJtiLength

/-- Whether a token still verifies, up to its marker. -/
def verifies (settings : Settings) (now : Int) (token : Token) : Bool :=
  decode settings now token && parsesJti token.claims

def jtiTtlSeconds : Int := 60

def socketTimeoutSeconds : Int := 2

def socketConnectTimeoutSeconds : Int := 2

/-- How long a request waits for its marker: to connect, to check the connection
and to set the marker, each no longer than its timeout. -/
def patience : Int :=
  (socketConnectTimeoutSeconds + 2 * socketTimeoutSeconds) * second

def markerKey (jti : String) : String :=
  "jwt:jti:" ++ jti

/-- The instants at which the markers expire. -/
abbrev Markers := String → Option Int

def live (markers : Markers) (now : Int) (key : String) : Bool :=
  (markers key).any (now < ·)

def setMarker (markers : Markers) (now : Int) (key : String) : Markers :=
  if live markers now key then markers
  else Function.update markers key (some (now + jtiTtlSeconds * second))

/-- A verified request that waits for its marker. -/
structure Request where
  token : Token
  verifiedAt : Int

structure Gate where
  now : Int
  markers : Markers
  waiting : List Request := []
  accepted : List Token := []

inductive Event where
  | passes (micros : Nat)
  | arrives (token : Token)
  | setsMarker (place : Nat)
  | losesReply (place : Nat)
  | fails (place : Nat)

/-- A worker hears whether its request set the marker, unless it has given up
by then. -/
def consume (settings : Settings) (gate : Gate) (place : Nat) (request : Request) : Gate :=
  let key := markerKey request.token.claims.jti
  let created := !live gate.markers gate.now key && gate.now ≤ request.verifiedAt + patience
  { gate with
    markers := setMarker gate.markers gate.now key
    waiting := gate.waiting.eraseIdx place
    accepted :=
      if created && settings.makesPrincipal request.token.claims.others then
        gate.accepted ++ [request.token]
      else gate.accepted }

def step (settings : Settings) (event : Event) (gate : Gate) : Gate :=
  match event with
  | .passes micros => { gate with now := gate.now + micros }
  | .arrives token =>
    if verifies settings gate.now token then
      { gate with waiting := gate.waiting ++ [⟨token, gate.now⟩] }
    else gate
  | .setsMarker place =>
    match gate.waiting[place]? with
    | some request => consume settings gate place request
    | none => gate
  | .losesReply place =>
    match gate.waiting[place]? with
    | some request =>
      { gate with
        markers := setMarker gate.markers gate.now (markerKey request.token.claims.jti) }
    | none => gate
  | .fails place => { gate with waiting := gate.waiting.eraseIdx place }

section Once

variable {settings : Settings} {token : Token}

/-- The marker of the token lives for as long as the token could verify and a
request that verified it could wait. -/
def Marked (token : Token) (markers : Markers) : Prop :=
  ∃ expiry, markers (markerKey token.claims.jti) = some expiry ∧
    (token.claims.exp + leewaySeconds) * second + patience ≤ expiry

/-- The requests that carry the token verified it, and it has passed once with
its marker set, or not at all. -/
structure Guarded (token : Token) (gate : Gate) : Prop where
  waiting : ∀ request ∈ gate.waiting, request.token = token →
    request.verifiedAt ≤ gate.now ∧ inTime request.verifiedAt token.claims = true
  once : token ∉ gate.accepted ∨ gate.accepted.count token = 1 ∧ Marked token gate.markers

variable {now : Int}

theorem inTime_eq_true {claims : Claims} : inTime now claims = true ↔
      claims.iat * second ≤ now + leewaySeconds * second ∧
        now - leewaySeconds * second < claims.exp * second := by
  rw [inTime, Bool.and_eq_true, decide_eq_true_iff, decide_eq_true_iff]

variable {markers : Markers} {key : String}

theorem live_eq_true :
    live markers now key = true ↔ ∃ expiry, markers key = some expiry ∧ now < expiry := by
  unfold live
  cases markers key with
  | none => simp
  | some expiry => simp

theorem setMarker_of_live
    (alive : live markers now key = true) : setMarker markers now key = markers :=
  if_pos alive

theorem setMarker_of_not_live (dead : live markers now key = false) :
    setMarker markers now key = Function.update markers key (some (now + jtiTtlSeconds * second)) :=
  if_neg (by rw [dead]; exact Bool.false_ne_true)

/-- Setting any marker keeps the token's: a marker is only replaced when it has
expired, by one that expires later. -/
theorem Marked.setMarker (marked : Marked token markers) (now : Int) (key : String) :
    Marked token (JtiReplay.setMarker markers now key) := by
  obtain ⟨expiry, isExpiry, late⟩ := marked
  cases alive : live markers now key with
  | true =>
    rw [setMarker_of_live alive]
    exact ⟨expiry, isExpiry, late⟩
  | false =>
    rw [setMarker_of_not_live alive]
    by_cases same : markerKey token.claims.jti = key
    · refine ⟨now + jtiTtlSeconds * second, ?_, ?_⟩
      · rw [same, Function.update_self]
      · have expired : expiry ≤ now := by
          by_contra early
          have lives := live_eq_true.mpr ⟨expiry, same ▸ isExpiry, Int.not_le.mp early⟩
          rw [alive] at lives
          cases lives
        have positive : 0 ≤ jtiTtlSeconds * second := by decide
        omega
    · refine ⟨expiry, ?_, late⟩
      rw [Function.update_of_ne same, isExpiry]

theorem marked_setMarker {verifiedAt : Int}
    (lifetime : token.claims.exp = token.claims.iat + tokenTtlSeconds)
    (verified : inTime verifiedAt token.claims = true) (later : verifiedAt ≤ now)
    (dead : live markers now (markerKey token.claims.jti) = false) :
    Marked token (setMarker markers now (markerKey token.claims.jti)) := by
  have ⟨issued, _⟩ := inTime_eq_true.mp verified
  refine ⟨now + jtiTtlSeconds * second, ?_, ?_⟩
  · rw [setMarker_of_not_live dead, Function.update_self]
  · rw [lifetime]
    simp only [jtiTtlSeconds, tokenTtlSeconds, leewaySeconds, patience, second,
      socketConnectTimeoutSeconds, socketTimeoutSeconds] at *
    omega

theorem live_of_marked {verifiedAt : Int} (marked : Marked token markers)
    (verified : inTime verifiedAt token.claims = true)
    (waits : now ≤ verifiedAt + patience) :
    live markers now (markerKey token.claims.jti) = true := by
  obtain ⟨expiry, isExpiry, late⟩ := marked
  have ⟨_, unexpired⟩ := inTime_eq_true.mp verified
  refine live_eq_true.mpr ⟨expiry, isExpiry, ?_⟩
  simp only [leewaySeconds, second] at *
  omega

theorem Guarded.consume {gate : Gate} {place : Nat} {request : Request}
    (lifetime : token.claims.exp = token.claims.iat + tokenTtlSeconds)
    (guarded : Guarded token gate) (isWaiting : request ∈ gate.waiting) :
    Guarded token (consume settings gate place request) := by
  constructor
  · exact fun other member => guarded.waiting other (mem_of_mem_eraseIdx member)
  · simp only [JtiReplay.consume]
    split
    · rename_i passes
      simp only [Bool.and_eq_true, Bool.not_eq_true', decide_eq_true_iff] at passes
      obtain ⟨⟨dead, waits⟩, _⟩ := passes
      by_cases same : request.token = token
      · have ⟨later, verified⟩ := guarded.waiting request isWaiting same
        rw [same] at dead ⊢
        right
        rcases guarded.once with fresh | ⟨_, marked⟩
        · refine ⟨?_, marked_setMarker lifetime verified later dead⟩
          rw [count_append, count_eq_zero_of_not_mem fresh, count_singleton_self]
        · rw [live_of_marked marked verified waits] at dead
          cases dead
      · rcases guarded.once with fresh | ⟨counted, marked⟩
        · left
          intro member
          rcases List.mem_append.mp member with old | new
          · exact fresh old
          · exact same (List.mem_singleton.mp new).symm
        · right
          refine ⟨?_, marked.setMarker _ _⟩
          rw [count_append, counted, count_eq_zero_of_not_mem]
          exact fun new => same (List.mem_singleton.mp new).symm
    · rcases guarded.once with fresh | ⟨counted, marked⟩
      · exact .inl fresh
      · exact .inr ⟨counted, marked.setMarker _ _⟩

theorem guarded_step {gate : Gate}
    (lifetime : token.claims.exp = token.claims.iat + tokenTtlSeconds)
    (guarded : Guarded token gate) (event : Event) :
    Guarded token (step settings event gate) := by
  cases event with
  | passes micros =>
    refine ⟨fun request member same => ?_, guarded.once⟩
    have ⟨later, verified⟩ := guarded.waiting request member same
    exact ⟨Int.le_trans later (Int.le_add_of_nonneg_right (Int.natCast_nonneg _)), verified⟩
  | arrives arrived =>
    simp only [step]
    split
    · rename_i verified
      refine ⟨fun request member same => ?_, guarded.once⟩
      rcases List.mem_append.mp member with old | new
      · exact guarded.waiting request old same
      · rw [List.mem_singleton.mp new] at same ⊢
        refine ⟨Int.le_refl _, ?_⟩
        simp only [verifies, decode, Bool.and_eq_true] at verified
        exact same ▸ verified.1.2
    · exact guarded
  | setsMarker place =>
    simp only [step]
    split
    · rename_i request found
      exact guarded.consume lifetime (mem_of_getElem? found)
    · exact guarded
  | losesReply place =>
    simp only [step]
    split
    · refine ⟨guarded.waiting, ?_⟩
      rcases guarded.once with fresh | ⟨counted, marked⟩
      · exact .inl fresh
      · exact .inr ⟨counted, marked.setMarker _ _⟩
    · exact guarded
  | fails place =>
    exact ⟨fun request member =>
      guarded.waiting request (mem_of_mem_eraseIdx member), guarded.once⟩

theorem mintToken_lifetime {config : RagConfig} {instant : Int}
    {uuid others : String} (minted : mintToken config instant uuid others = .ok token) :
    token.claims.exp = token.claims.iat + tokenTtlSeconds := by
  unfold mintToken at minted
  split at minted
  · cases minted
  · cases minted
    rfl

end Once

/-- The service before it has seen a request, with any markers left. -/
def Gate.opened (now : Int) (markers : Markers) : Gate :=
  { now, markers }

/-- Every minted token is accepted at most once in every run, and once it is, its
marker lives at every instant at which the token still verifies. -/
theorem minted_token_accepted_once {settings : Settings} {config : RagConfig}
    {instant now : Int} {uuid others : String} {markers : Markers} {token : Token}
    {gate : Gate} (minted : mintToken config instant uuid others = .ok token)
    (reached : Reaches (step settings) (fun _ _ => True) (Gate.opened now markers) gate) :
    gate.accepted.count token ≤ 1 ∧
      (token ∈ gate.accepted → ∀ later, verifies settings later token = true →
        live gate.markers later (markerKey token.claims.jti) = true) := by
  have lifetime := mintToken_lifetime minted
  have guarded : Guarded token gate := by
    apply reached.invariant
    · exact ⟨fun _ member => absurd member not_mem_nil, .inl not_mem_nil⟩
    · exact fun _ event guarded _ => guarded_step lifetime guarded event
  constructor
  · rcases guarded.once with fresh | ⟨counted, _⟩
    · rw [count_eq_zero_of_not_mem fresh]
      exact Nat.zero_le 1
    · exact Nat.le_of_eq counted
  · intro member later verified
    rcases guarded.once with fresh | ⟨_, marked⟩
    · exact absurd member fresh
    · simp only [verifies, decode, Bool.and_eq_true] at verified
      exact live_of_marked marked verified.1.2 (Int.le_add_of_nonneg_right (by decide))

def askToken : Token := {
  claims := {
    iss := "laravel-billing"
    aud := "rag-service"
    iat := 100
    exp := 130
    jti := "7f3c"
    others := "\x7b\x7d" }
  secret := "secret" }

def ragSettings : Settings := {
  ragJwtSecret := "secret"
  ragJwtIss := "laravel-billing"
  ragJwtAud := "rag-service"
  makesPrincipal := fun _ => true }

/-- The gate after the token arrived at two workers at once and both set their
marker. -/
def askedTwice : Gate :=
  runFrom (step ragSettings) (Gate.opened (100 * second) fun _ => none)
    [.arrives askToken, .arrives askToken, .setsMarker 0, .passes 5000000, .setsMarker 0]

/-- A token that arrives twice at once is accepted by the first worker alone. -/
theorem minted_token_accepted_once_askedTwice :
    askedTwice.accepted = [askToken] ∧ askedTwice.accepted.count askToken ≤ 1 ∧
      (askToken ∈ askedTwice.accepted → ∀ later, verifies ragSettings later askToken = true →
          live askedTwice.markers later (markerKey askToken.claims.jti) = true) := by
  refine ⟨rfl, ?_⟩
  exact minted_token_accepted_once
    (show mintToken { jwtSecret := "secret" } (100 * second) "7f3c" "\x7b\x7d" =
      .ok askToken from rfl)
    (reaches_runFrom .start (by simp [OrderlyRun]))

end McpAssistant.Auth.JtiReplay
