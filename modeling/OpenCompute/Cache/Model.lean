import OpenCompute.Platform
import OpenCompute.Relational.Transaction

/-!
# Keys and responses of the cache

What a caller may hand to the response cache of a worker, and how the cache
checks it: a key names a canonical URL on one of three surfaces, a response has
bounded headers, deadlines and tags, and a purge is brought into a canonical
form.
-/

namespace OpenCompute
namespace Cache

open Transaction

/-! ## Data -/

inductive CacheSurface where
  | automatic
  | cacheApiDefault
  | cacheApiNamed
deriving DecidableEq

inductive CacheMethod where
  | get
  | head
deriving DecidableEq

structure CacheIdentity where
  surface : CacheSurface
  entrypoint : Option String
  versionScope : String
  cacheName : Option String
  canonicalUrl : String
  method : CacheMethod
deriving DecidableEq

/-- What `canonical_bytes` serializes. -/
def CacheIdentity.canonical (identity : CacheIdentity) : CacheIdentity :=
  { identity with method := .get }

abbrev Headers := List (String × String)

structure CacheStoredResponse where
  status : Nat
  headers : Headers
  bodySha256 : String
  bodySize : Nat
  vary : List String
  tags : List String
  freshUntilMs : Millis
  staleWhileRevalidateUntilMs : Millis
  staleIfErrorUntilMs : Millis
  generation : Nat
deriving DecidableEq

structure CachePurge where
  tags : List String
  pathPrefixes : List String
  purgeEverything : Bool
deriving DecidableEq

abbrev Token := BitVec 128

structure CachePut where
  identity : CacheIdentity
  requestHeaders : Headers
  response : CacheStoredResponse
  expectedFenceGeneration : Nat
  refreshToken : Option Token
  nowMs : Millis

inductive CacheLookupStatus where
  | miss
  | hit
  | updating
  | stale
  | staleIfError
  | expired
deriving DecidableEq

structure ResponseCacheConfig where
  maxObjectBytes : Nat := 16 * 1024 * 1024
  maxBytesPerWorker : Nat := 1024 * 1024 * 1024
  maxHeaderBytes : Nat := 32 * 1024
  maxVariantsPerKey : Nat := 32
  maxTagsPerEntry : Nat := 64
  maxCacheNameBytes : Nat := 128
  maxUrlBytes : Nat := 8 * 1024
  refreshLeaseMs : Nat := 30000
  maxTtlSeconds : Nat := 7 * 24 * 60 * 60

/-- A parsed URL. -/
structure Url where
  scheme : String
  host : Option String
  port : Option Nat
  path : String
  query : Option String
  fragment : Option String
deriving DecidableEq

/-- Digests, and the library for URLs. -/
structure Host where
  baseHash : CacheIdentity -> BitVec 256
  varyFingerprint : List String -> Headers -> BitVec 256
  parseUrl : String -> Option Url
  printUrl : Url -> String

/-! ## Errors -/

def keyInvalid : PlatformError := ⟨.cacheKeyInvalid, "cache key is invalid"⟩

def protocolError : PlatformError :=
  ⟨.cacheProtocolError, "cache metadata protocol is invalid"⟩

def limitError : PlatformError := ⟨.cacheLimitExceeded, "cache limit was exceeded"⟩

def corrupt : PlatformError :=
  ⟨.cacheCorrupt, "cache database failed an integrity invariant"⟩

def staleWrite : PlatformError :=
  ⟨.cacheResultUnknown, "cache write lost its purge or refresh fence"⟩

def unavailable : PlatformError :=
  ⟨.cacheUnavailable, "cache metadata authority is unavailable"⟩

/-! ## Text -/

/-- A lowercase name of a header field. -/
def fieldName (name : String) : Bool :=
  decide (0 < name.utf8ByteSize) && decide (name.utf8ByteSize ≤ 128) &&
    name.toList.all fun c => c.isLower || c.isDigit || c == '-'

def isLowerHex (c : Char) : Bool := c.isDigit || (decide ('a' ≤ c) && decide (c ≤ 'f'))

/-- `VersionId::from_str`: a canonical lowercase UUID of version 7. -/
def isVersionId (text : String) : Bool :=
  let cs := text.toList
  decide (cs.length = 36) && cs.zipIdx.all fun (c, i) =>
    if i = 8 ∨ i = 13 ∨ i = 18 ∨ i = 23 then c == '-'
    else if i = 14 then c == '7'
    else isLowerHex c

def validEntrypoint (value : String) : Bool :=
  decide (value.utf8ByteSize ≤ 128) &&
    value.toList.head?.any (fun c => c.isAlpha || c == '_' || c == '$') &&
    value.toList.all fun c => c.isAlphanum || c == '_' || c == '$'

def isInternalOrHopByHop (name : String) : Bool :=
  "x-open-compute-".toList.isPrefixOf name.toList ||
    ["connection", "keep-alive", "proxy-authenticate", "proxy-authorization", "te", "trailer",
      "transfer-encoding", "upgrade"].contains name

/-- The code points that `trim` removes. -/
def isWhiteSpace (c : Char) : Bool :=
  [0x20, 0x85, 0xa0, 0x1680, 0x2028, 0x2029, 0x202f, 0x205f, 0x3000].contains c.toNat ||
    (decide (9 ≤ c.toNat) && decide (c.toNat ≤ 13)) ||
    (decide (0x2000 ≤ c.toNat) && decide (c.toNat ≤ 0x200a))

def trim (text : String) : String :=
  String.ofList (((text.toList.dropWhile isWhiteSpace).reverse.dropWhile isWhiteSpace).reverse)

def toAsciiLowercase (text : String) : String := String.ofList (text.toList.map Char.toLower)

/-! ## Checks -/

variable (host : Host) (config : ResponseCacheConfig)

def canonicalUrl (url : Url) : String :=
  host.printUrl { url with
    fragment := none
    port := if (url.scheme = "http" ∧ url.port = some 80) ∨
      (url.scheme = "https" ∧ url.port = some 443) then none else url.port
    host := url.host.map toAsciiLowercase }

/-- An absolute HTTP(S) URL without a fragment. -/
def parseHttp (text : String) : Option Url :=
  (host.parseUrl text).filter fun url =>
    (url.scheme == "http" || url.scheme == "https") && url.fragment.isNone

def CacheIdentity.validate (identity : CacheIdentity) : Result Unit := do
  ensure (identity.canonicalUrl.utf8ByteSize ≤ config.maxUrlBytes) keyInvalid
  let url ← okOr (parseHttp host identity.canonicalUrl) keyInvalid
  ensure (Cache.canonicalUrl host url = identity.canonicalUrl) keyInvalid
  match identity.surface with
  | .automatic => do
    let entrypoint ← okOr identity.entrypoint keyInvalid
    ensure (validEntrypoint entrypoint = true ∧ identity.cacheName = none ∧
      (identity.versionScope = "shared" ∨ isVersionId identity.versionScope = true)) keyInvalid
  | .cacheApiDefault =>
    ensure (identity.entrypoint = none ∧ identity.cacheName = none ∧
      identity.versionScope = "shared") keyInvalid
  | .cacheApiNamed => do
    let name ← okOr identity.cacheName keyInvalid
    ensure (identity.entrypoint = none ∧ identity.versionScope = "shared" ∧ name ≠ "" ∧
      name.utf8ByteSize ≤ config.maxCacheNameBytes ∧ name.toList.any isAsciiControl = false)
      keyInvalid

def validateHeaders (headers : Headers) : Result Unit := do
  ensure (headers.all (fun header => fieldName header.1 &&
    !header.2.toList.any (fun c => c == '\r' || c == '\n' || c == '\x00') &&
    !isInternalOrHopByHop header.1) = true) protocolError
  ensure ((headers.map fun header => header.1.utf8ByteSize + header.2.utf8ByteSize + 4).sum ≤
    config.maxHeaderBytes) limitError

def validateRequestHeaders (headers : Headers) : Result Unit :=
  validateHeaders config headers

def validateVary (vary : List String) : Result Unit := do
  ensure (vary.length ≤ 32) limitError
  ensure (vary.all fieldName = true ∧ vary.IsChain (· < ·)) protocolError

def validateTags (tags : List String) : Result Unit := do
  ensure (tags.length ≤ config.maxTagsPerEntry) limitError
  ensure (tags.all (fun tag => decide (0 < tag.utf8ByteSize) && decide (tag.utf8ByteSize ≤ 128) &&
    !tag.toList.any isAsciiControl && toAsciiLowercase tag == tag) = true ∧ tags.Nodup)
    protocolError

def validateResponse (response : CacheStoredResponse) (nowMs : Millis) : Result Unit := do
  ensure (200 ≤ response.status ∧ response.status ≤ 599 ∧ 0 ≤ nowMs ∧
    nowMs ≤ response.freshUntilMs ∧
    response.freshUntilMs ≤ response.staleWhileRevalidateUntilMs ∧
    response.freshUntilMs ≤ response.staleIfErrorUntilMs ∧ response.generation ≠ 0 ∧
    response.bodySize ≤ config.maxObjectBytes ∧ response.bodySha256.utf8ByteSize = 64 ∧
    response.bodySha256.toList.all isLowerHex = true) protocolError
  let maximumDeadline := min (nowMs + min ((config.maxTtlSeconds * 1000 : Nat) : Int) i64Max) i64Max
  ensure (response.freshUntilMs ≤ maximumDeadline ∧
    response.staleWhileRevalidateUntilMs ≤ maximumDeadline ∧
    response.staleIfErrorUntilMs ≤ maximumDeadline) limitError
  validateHeaders config response.headers
  validateVary response.vary
  validateTags config response.tags

def canonicalPathStart (start : String) : Result String := do
  ensure (start ≠ "" ∧ start.utf8ByteSize ≤ config.maxUrlBytes ∧
    start.toList.any isAsciiControl = false) protocolError
  if start.toList.head? = some '/' then
    pure start
  else
    let url ← okOr (parseHttp host start) protocolError
    pure (canonicalUrl host url)

def canonicalPurge (purge : CachePurge) : Result CachePurge := do
  ensure (purge.tags.length ≤ config.maxTagsPerEntry ∧ purge.pathPrefixes.length ≤ 64)
    protocolError
  let tags := ((purge.tags.map fun tag => toAsciiLowercase (trim tag)).insertionSort
    (· ≤ ·)).destutter (· ≠ ·)
  validateTags config tags
  let pathPrefixes ← purge.pathPrefixes.mapM (canonicalPathStart host config)
  ensure (purge.purgeEverything = true ∨ pathPrefixes ≠ [] ∨ tags ≠ []) protocolError
  pure ⟨tags, pathPrefixes, purge.purgeEverything⟩

end Cache
end OpenCompute
