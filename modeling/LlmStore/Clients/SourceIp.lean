import LlmStore.Clients.System

/-!
# The address a caller is judged by

`resolve_source_ip` behind the bundled nginx. The proxy appends the address of its peer to whatever `X-Forwarded-For` the
caller sends, and the control plane takes the first entry, which is the caller's own (`resolveSourceIp_forward`). Two
requests of one peer are judged alike just if the first entries of their headers agree (`judgedAlike_iff`).
-/

namespace LlmStore.Clients

open LlmStore.Lib

/-! ## The header parser -/

/-- What the control plane sees of a request: its headers by their names in lower case, and the host it comes from. -/
structure Request where
  headers : List (String × List Char)
  client : Option (List Char)

/-- `request.headers.get(name, "")`. -/
def Request.header (request : Request) (name : String) : List Char := (request.headers.lookup name).getD []

/-- `resolve_source_ip`. -/
def resolveSourceIp (request : Request) : List Char :=
  let forwardedFor := request.header "x-forwarded-for"
  if forwardedFor ≠ [] then Text.strip ((forwardedFor.splitOn ',').headD [])
  else
    let realIp := Text.strip (request.header "x-real-ip")
    if realIp ≠ [] then realIp else request.client.getD "unknown".toList

/-! ## The rate limiter -/

structure RedisValue where
  value : ℕ
  expiresAt : Option ℚ

abbrev Redis := Table String RedisValue

namespace Redis

/-- The value under a key that has not expired. -/
def live (redis : Redis) (now : ℚ) (key : String) : Option RedisValue :=
  (redis.lookup key).filter fun v => v.expiresAt.all fun t => now < t

/-- `redis.incr(key)`. -/
def incr (redis : Redis) (now : ℚ) (key : String) : ℕ × Redis :=
  match live redis now key with
  | some v => (v.value + 1, redis.insert key { v with value := v.value + 1 })
  | none => (1, redis.insert key ⟨1, none⟩)

/-- `redis.expire(key, seconds)`. -/
def expire (redis : Redis) (now : ℚ) (key : String) (seconds : ℚ) : Redis :=
  match live redis now key with
  | some v => redis.insert key { v with expiresAt := some (now + seconds) }
  | none => redis

end Redis

/-- `enforce_ip_rate_limit` at the given seconds, with the text of `RateLimitExceeded` if it is raised. -/
def enforceIpRateLimit (redis : Redis) (now : ℚ) (sourceIp : String) (limitPerMinute : ℤ) :
    Except String Unit × Redis :=
  let currentMinute := (now / 60).floor
  let key := "ratelimit:ip:" ++ sourceIp ++ ":" ++ toString currentMinute
  let (current, redis) := redis.incr now key
  let redis := if current = 1 then redis.expire now key 65 else redis
  if current > limitPerMinute then
    (.error ("IP address " ++ sourceIp ++ " exceeded " ++ toString limitPerMinute ++ " requests per minute"), redis)
  else (.ok (), redis)

/-! ## The proxy -/

/-- An address as nginx writes it: not empty, without commas and spaces. -/
structure PeerAddress where
  text : List Char
  ne_nil : text ≠ []
  no_comma : ',' ∉ text
  no_space : ∀ c ∈ text, Text.isSpace c = false

/-- `$proxy_add_x_forwarded_for`, as nginx documents it: the header of the client's request with the address of the peer
appended to it, separated by a comma, or the address if the request has no such header. -/
structure Nginx where
  proxyAddXForwardedFor : Option (List Char) → List Char → List Char
  absent : ∀ peer, proxyAddXForwardedFor none peer = peer
  present : ∀ value peer, ∃ gap, (∀ c ∈ gap, c = ' ') ∧ proxyAddXForwardedFor (some value) peer = value ++ ',' :: gap ++ peer

/-- `location /`: the request that reaches the control plane for a request of `peer` with the given `X-Forwarded-For` and
other headers. -/
def Nginx.forward (nginx : Nginx) (peer : PeerAddress) (proxyHost : List Char) (others : List (String × List Char))
    (forwardedFor : Option (List Char)) : Request where
  headers := [("x-forwarded-for", nginx.proxyAddXForwardedFor forwardedFor peer.text), ("x-real-ip", peer.text)] ++
    others.filter fun header => header.1 ≠ "x-forwarded-for" ∧ header.1 ≠ "x-real-ip"
  client := some proxyHost

/-- The first entry of the header that the caller sends; without the header there is only the peer. -/
def firstEntry (peer : PeerAddress) : Option (List Char) → List Char
  | none => peer.text
  | some value => Text.strip (value.takeWhile (· ≠ ','))

theorem headD_splitOn (s : List Char) : (s.splitOn ',').headD [] = s.takeWhile (· ≠ ',') := by
  unfold List.splitOn
  induction s with
  | nil => rfl
  | cons c s ih =>
    rw [List.splitOnP_cons_eq_if_modifyHead]
    by_cases hc : c = ','
    · simp [hc]
    · obtain ⟨x, xs, hxs⟩ := List.exists_cons_of_ne_nil (List.splitOnP_ne_nil (· == ',') s)
      rw [hxs] at ih ⊢
      simpa [hc] using ih

/-- The address is what the caller's header says first. -/
theorem resolveSourceIp_forward (nginx : Nginx) (peer : PeerAddress) (proxyHost : List Char)
    (others : List (String × List Char)) (forwardedFor : Option (List Char)) :
    resolveSourceIp (nginx.forward peer proxyHost others forwardedFor) = firstEntry peer forwardedFor := by
  have hheader : (nginx.forward peer proxyHost others forwardedFor).header "x-forwarded-for" =
      nginx.proxyAddXForwardedFor forwardedFor peer.text := by
    simp [Nginx.forward, Request.header]
  have hne : nginx.proxyAddXForwardedFor forwardedFor peer.text ≠ [] := by
    cases forwardedFor with
    | none =>
      rw [nginx.absent]
      exact peer.ne_nil
    | some value =>
      obtain ⟨gap, -, h⟩ := nginx.present value peer.text
      rw [h]
      simp
  simp only [resolveSourceIp, hheader, ne_eq, hne, not_false_iff, if_true, headD_splitOn]
  cases forwardedFor with
  | none =>
    have htake : peer.text.takeWhile (· ≠ ',') = peer.text := by
      rw [List.takeWhile_eq_self_iff]
      intro c hc
      have hcomma : c ≠ ',' := fun h => peer.no_comma (h ▸ hc)
      simpa using hcomma
    rw [nginx.absent, htake, Text.strip_eq_self peer.no_space, firstEntry]
  | some value =>
    obtain ⟨gap, -, h⟩ := nginx.present value peer.text
    have htake : (value ++ ',' :: gap ++ peer.text).takeWhile (· ≠ ',') = value.takeWhile (· ≠ ',') := by
      rw [List.append_assoc, List.takeWhile_append]
      split_ifs with hall
      · rw [List.cons_append, List.takeWhile_cons_of_neg (by simp), List.append_nil]
        exact ((List.takeWhile_prefix _).eq_of_length hall).symm
      · rfl
    rw [h, htake, firstEntry]

/-- Any text without a comma and without spaces at its ends is an address that a caller can be judged by. -/
theorem caller_chooses (nginx : Nginx) (peer : PeerAddress) (proxyHost : List Char)
    (others : List (String × List Char)) {address : List Char} (hcomma : ',' ∉ address)
    (hstrip : Text.strip address = address) :
    resolveSourceIp (nginx.forward peer proxyHost others (some address)) = address := by
  have htake : address.takeWhile (· ≠ ',') = address := by
    rw [List.takeWhile_eq_self_iff]
    intro c hc
    have hne : c ≠ ',' := fun h => hcomma (h ▸ hc)
    simpa using hne
  rw [resolveSourceIp_forward, firstEntry, htake, hstrip]

/-! ## Two requests of one peer -/

/-- Two requests come from the same address, for the policy of every client and for the rate limiter. -/
structure JudgedAlike (r₁ r₂ : Request) : Prop where
  address : resolveSourceIp r₁ = resolveSourceIp r₂
  policy : ∀ access, enforceClientIpPolicy access (String.ofList (resolveSourceIp r₁)) =
    enforceClientIpPolicy access (String.ofList (resolveSourceIp r₂))
  rate : ∀ redis now limitPerMinute,
    enforceIpRateLimit redis now (String.ofList (resolveSourceIp r₁)) limitPerMinute =
      enforceIpRateLimit redis now (String.ofList (resolveSourceIp r₂)) limitPerMinute

theorem JudgedAlike.of_address {r₁ r₂ : Request} (h : resolveSourceIp r₁ = resolveSourceIp r₂) : JudgedAlike r₁ r₂ where
  address := h
  policy access := by rw [h]
  rate redis now limitPerMinute := by rw [h]

/-- **Two requests of one peer that differ only in the `X-Forwarded-For` sent are judged alike if and only if the first
entries of the two headers agree**, for every allowlist, blocklist and state of the rate limiter. -/
theorem judgedAlike_iff (nginx : Nginx) (peer : PeerAddress) (proxyHost : List Char)
    (others : List (String × List Char)) (sent₁ sent₂ : Option (List Char)) :
    JudgedAlike (nginx.forward peer proxyHost others sent₁) (nginx.forward peer proxyHost others sent₂) ↔
      firstEntry peer sent₁ = firstEntry peer sent₂ := by
  constructor
  · intro h
    have haddress := h.address
    rwa [resolveSourceIp_forward, resolveSourceIp_forward] at haddress
  · intro h
    apply JudgedAlike.of_address
    rw [resolveSourceIp_forward, resolveSourceIp_forward, h]

/-- nginx, with a space after the comma. -/
def nginxProxy : Nginx where
  proxyAddXForwardedFor
    | none, peer => peer
    | some value, peer => value ++ ',' :: [' '] ++ peer
  absent _ := rfl
  present value peer := ⟨[' '], by simp, rfl⟩

def somePeer : PeerAddress where
  text := "203.0.113.9".toList
  ne_nil := by decide
  no_comma := by decide
  no_space := by simp [Text.isSpace]

/-- A header that names another address is believed. -/
theorem forged_header : ¬ ∀ (nginx : Nginx) (peer : PeerAddress) (proxyHost : List Char)
    (others : List (String × List Char)) (sent₁ sent₂ : Option (List Char)),
    JudgedAlike (nginx.forward peer proxyHost others sent₁) (nginx.forward peer proxyHost others sent₂) := by
  intro h
  have hforged := caller_chooses nginxProxy somePeer "172.18.0.5".toList []
    (by decide : ',' ∉ "10.0.0.5".toList) (by decide)
  have hplain := resolveSourceIp_forward nginxProxy somePeer "172.18.0.5".toList [] none
  have haddress := (h nginxProxy somePeer "172.18.0.5".toList [] none (some "10.0.0.5".toList)).address
  rw [hforged, hplain] at haddress
  exact absurd haddress (by decide)

end LlmStore.Clients
