import FlintlockRunner.Base.Strings

/-!
# Go's network addresses and URLs

`net.SplitHostPort`, `net.JoinHostPort` and `net/url.Parse`, as far as a caller
sees them that asks only whether they fail and what the parts are. A `URL` keeps
its host and its path as they are written: unescaping makes no empty text out of
one that is not and no slash out of a path that begins with one.
-/

namespace Net

open Strings

/-! ## Host and port -/

/-- `net.SplitHostPort`: the port stands behind the last colon, and a host that
holds colons stands in brackets. -/
def splitHostPort (addr : List Char) : Option (List Char × List Char) :=
  match cutLast ':' addr with
  | none => none
  | some (before, port) =>
    let host? := match before with
      | '[' :: inner =>
        -- The first closing bracket has to stand right before the last colon.
        match cut ']' inner with
        | some (host, []) => if '[' ∈ host then none else some host
        | _ => none
      | _ => if ':' ∈ before ∨ '[' ∈ before ∨ ']' ∈ before then none else some before
    match host? with
    | none => none
    | some host => if '[' ∈ port ∨ ']' ∈ port then none else some (host, port)

/-- `net.JoinHostPort`. -/
def joinHostPort (host port : List Char) : List Char :=
  if ':' ∈ host then '[' :: host ++ [']', ':'] ++ port else host ++ ':' :: port

/-! ## IP addresses -/

/-- A hexadecimal digit. -/
def isHex (c : Char) : Bool := isDigit c || ('a' ≤ c && c ≤ 'f') || ('A' ≤ c && c ≤ 'F')

/-- The value of a hexadecimal digit. -/
def unhex (c : Char) : Nat :=
  if isDigit c then c.toNat - '0'.toNat
  else if 'a' ≤ c then c.toNat - 'a'.toNat + 10
  else c.toNat - 'A'.toNat + 10

variable (cs : List Char)

/-- An octet of a dotted address: no leading zero, and at most 255. -/
def isOctet : Bool :=
  match digits cs with
  | none => false
  | some n => n ≤ 255 && (cs.length = 1 || cs.head? ≠ some '0') && cs.length ≤ 3

/-- What the fields of a dotted address may be. -/
def isIPv4 : Bool :=
  let octets := split '.' cs
  octets.length = 4 && octets.all isOctet

/-- The loop of `netip`'s IPv6 parser over its colon-separated fields: `left` of
the eight fields are still free, and `ellipsis` says whether a `::` was seen. It
answers how many fields are left at the end. -/
def ipv6Fields (left : Nat) (ellipsis : Bool) (cs : List Char) : Option (Nat × Bool) :=
  match left with
  | 0 => none
  | left + 1 =>
    let field := cs.takeWhile isHex
    if field = [] ∨ 4 < field.length then none
    else
      match cs.dropWhile isHex with
      | [] => some (left, ellipsis)
      | '.' :: _ =>
        -- A dotted address takes the place of the last two fields.
        if (¬ellipsis ∧ left ≠ 1) ∨ left = 0 ∨ ¬isIPv4 cs then none else some (left - 1, ellipsis)
      | [':'] => none
      | [':', ':'] => if ellipsis then none else some (left, true)
      | ':' :: ':' :: rest => if ellipsis then none else ipv6Fields left true rest
      | ':' :: rest => ipv6Fields left ellipsis rest
      | _ => none

/-- `netip.ParseAddr` on an address with colons and without a zone: a `::`
stands for one field or more. -/
def isIPv6 : Bool :=
  let fields := match cs with
    | [':', ':'] => some (8, true)
    | ':' :: ':' :: rest => ipv6Fields 8 true rest
    | _ => ipv6Fields 8 false cs
  match fields with
  | none => false
  | some (left, ellipsis) => if ellipsis then left ≠ 0 else left = 0

/-! ## URLs -/

/-- The parts of a URL an escape can stand in. -/
inductive Encoding
  | path
  | host
  | zone
  | userPassword
  | fragment
  deriving DecidableEq, Repr

/-- `shouldEscape` for a host or a zone: what may not stand there as it is. -/
def shouldEscape (c : Char) : Bool :=
  ¬(isAlnum c || c ∈ "!$&'()*+,;=:[]<>\"-_.~".toList)

/-- Whether `unescape` accepts the escape of two hexadecimal digits: a host
escapes bytes outside ASCII and the percent sign only, a zone what could stand
there without one, a space besides. -/
def escapeAllowed (mode : Encoding) (a b : Char) : Bool :=
  isHex a && isHex b &&
    match mode with
    | .host => 8 ≤ unhex a || (a = '2' && b = '5')
    | .zone =>
      let v := Char.ofNat (unhex a * 16 + unhex b)
      (a = '2' && b = '5') || v = ' ' || (unhex a < 8 && ¬shouldEscape v)
    | _ => true

/-- `unescape`, as far as it fails. -/
def unescapes (mode : Encoding) : List Char → Bool
  | [] => true
  | '%' :: a :: b :: rest => escapeAllowed mode a b && unescapes mode rest
  | '%' :: _ => false
  | c :: rest =>
    (mode ∉ [Encoding.host, Encoding.zone] || 0x80 ≤ c.toNat || ¬shouldEscape c) &&
      unescapes mode rest

def validOptionalPort : List Char → Bool
  | [] => true
  | ':' :: port => port.all isDigit
  | _ => false

/-- The host in brackets of a URL, without them: an IPv6 address and, behind an
escaped percent sign, a zone. -/
def validLiteral : Bool :=
  match cut '%' cs with
  | none => unescapes .host cs && isIPv6 cs
  | some (addr, zone) =>
    isIPv6 addr && unescapes .zone ('%' :: zone) &&
      (zone.take 2 = ['2', '5'] && zone.length ≠ 2)

/-- `parseHost`, as far as it fails; the colon of a port is the only one outside
brackets. -/
def validHost (host : List Char) : Bool :=
  match cutLast '[' host with
  | some ([], inner) =>
    match cutLast ']' inner with
    | none => false
    | some (literal, colonPort) => validOptionalPort colonPort && validLiteral literal
  | some _ => false
  | none =>
    (match cut ':' host with
      | none => true
      | some (_, port) => port.all isDigit) &&
    unescapes .host host

def validUserinfo : Bool :=
  cs.all fun c => isAlnum c || c ∈ "-._:~!$&'()*+,;=%@".toList

/-- `parseAuthority`: the host, if nothing in front of it or of it is wrong. -/
def parseAuthority (authority : List Char) : Option (List Char) :=
  match cutLast '@' authority with
  | none => if validHost authority then some authority else none
  | some (userinfo, host) =>
    if validHost host ∧ validUserinfo userinfo ∧ unescapes .userPassword userinfo then some host
    else none

/-- `url.URL`, without the parts no caller reads. -/
structure URL where
  scheme : String
  host : String
  path : String
  deriving DecidableEq, Repr

/-- `getScheme`: the text in front of the first colon when it can be a scheme,
and what follows; `none` for a colon with nothing in front. -/
def getScheme (raw : List Char) : Option (List Char × List Char) :=
  match cut ':' raw with
  | none => some ([], raw)
  | some ([], _) => none
  | some (c :: scheme, rest) =>
    if (isLower c || isUpper c) && scheme.all (fun d => isAlnum d || d ∈ ['+', '-', '.']) then
      some (c :: scheme, rest)
    else some ([], raw)

/-- `url.parse` of a URL whose fragment is cut off. -/
def parseReference (raw : List Char) : Option URL :=
  if raw.any fun c => c.toNat < 0x20 || c.toNat = 0x7f then none
  else if raw = ['*'] then some ⟨"", "", "*"⟩
  else
    match getScheme raw with
    | none => none
    | some (scheme, rest) =>
      let scheme := toLower (String.ofList scheme)
      let rest := match cut '?' rest with
        | none => rest
        | some (path, _) => path
      match rest with
      | '/' :: '/' :: authority =>
        if scheme = "" ∧ authority.head? = some '/' then
          if unescapes .path rest then some ⟨"", "", String.ofList rest⟩ else none
        else
          let path := authority.dropWhile (· ≠ '/')
          match parseAuthority (authority.takeWhile (· ≠ '/')) with
          | none => none
          | some host =>
            if unescapes .path path then some ⟨scheme, String.ofList host, String.ofList path⟩
            else none
      | '/' :: _ => if unescapes .path rest then some ⟨scheme, "", String.ofList rest⟩ else none
      | _ =>
        -- Without a slash the rest is opaque, or a relative path whose first
        -- segment must not look like a scheme.
        if scheme ≠ "" then some ⟨scheme, "", ""⟩
        else if ':' ∈ rest.takeWhile (· ≠ '/') ∨ ¬unescapes .path rest then none
        else some ⟨"", "", String.ofList rest⟩

/-- `url.Parse`. -/
def parse (raw : String) : Option URL :=
  match cut '#' raw.toList with
  | none => parseReference raw.toList
  | some (u, fragment) =>
    match parseReference u with
    | none => none
    | some url => if unescapes .fragment fragment then some url else none

end Net
