import IotdbClient.Client.Protocol

/-!
# The redirect cache

Device → endpoint hints harvested from status-400 insert responses.  Instants and durations are
natural numbers of milliseconds; the hash map is a list of pairs with distinct keys.
-/

namespace IotdbClient

/-- `DEFAULT_REDIRECT_TTL`. -/
def defaultRedirectTtl : Nat := 300000

def defaultRedirectMaxEntries : Nat := 1024

/-- A zero `ttl` disables expiry. -/
def isExpired (elapsed ttl : Nat) : Bool := ttl ≠ 0 && ttl < elapsed

structure RedirectEntry where
  endpoint : Endpoint
  inserted : Nat
  seq : Nat
deriving Repr, DecidableEq

structure RedirectCache where
  entries : List (String × RedirectEntry)
  ttl : Nat
  maxEntries : Nat
  seq : Nat
deriving Repr, DecidableEq

namespace RedirectCache

def new (ttl maxEntries : Nat) : RedirectCache := ⟨[], ttl, maxEntries, 0⟩

def default : RedirectCache := new defaultRedirectTtl defaultRedirectMaxEntries

/-- `HashMap::remove`. -/
def remove (entries : List (String × RedirectEntry)) (deviceId : String) :
    List (String × RedirectEntry) :=
  entries.filter fun p ↦ p.1 != deviceId

/-- `get_at`: an expired entry is removed on the way out. -/
def getAt (cache : RedirectCache) (deviceId : String) (now : Nat) :
    Option Endpoint × RedirectCache :=
  match cache.entries.lookup deviceId with
  | none => (none, cache)
  | some entry =>
      if isExpired (now - entry.inserted) cache.ttl then
        (none, { cache with entries := remove cache.entries deviceId })
      else (some entry.endpoint, cache)

/-- The key of the entry with the smallest insertion counter. -/
def oldest (entries : List (String × RedirectEntry)) : Option String :=
  (entries.argmin fun p ↦ p.2.seq).map Prod.fst

def put (cache : RedirectCache) (deviceId : String) (endpoint : Endpoint) (now : Nat) :
    RedirectCache :=
  if cache.maxEntries = 0 then cache
  else
    let full := cache.maxEntries ≤ cache.entries.length && (cache.entries.lookup deviceId).isNone
    let entries :=
      match full, oldest cache.entries with
      | true, some key => remove cache.entries key
      | _, _ => cache.entries
    -- `self.seq += 1` on a `u64`, which wraps in a release build
    let seq := (cache.seq + 1) % 2 ^ 64
    { cache with
      entries := remove entries deviceId ++ [(deviceId, ⟨endpoint, now, seq⟩)]
      seq := seq }

def clear (cache : RedirectCache) : RedirectCache := { cache with entries := [] }

end RedirectCache

/-- `None` for an empty host and for a port that is zero or outside `u16`. -/
def endpointFromRedirect (node : TEndPoint) : Option Endpoint :=
  if node.ip.isEmpty then none
  else if 0 < node.port.toInt ∧ node.port.toInt < 2 ^ 16 then
    some ⟨node.ip, UInt16.ofNat node.port.toInt.toNat⟩
  else none

def putHint (now : Nat) (cache : RedirectCache) (device : String) (node : Option TEndPoint) :
    RedirectCache :=
  match node.bind endpointFromRedirect with
  | some endpoint => cache.put device endpoint now
  | none => cache

def recordRedirects (cache : RedirectCache) (devices : List String) (status : TSStatus)
    (now : Nat) : RedirectCache :=
  match status.subStatus with
  | some subs =>
      if subs.length = devices.length then
        (devices.zip subs).foldl (fun cache p ↦ putHint now cache p.1 p.2.redirectNode) cache
      else devices.foldl (fun cache device ↦ putHint now cache device status.redirectNode) cache
  | none => devices.foldl (fun cache device ↦ putHint now cache device status.redirectNode) cache

end IotdbClient
