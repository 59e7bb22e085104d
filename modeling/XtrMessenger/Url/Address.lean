import XtrMessenger.Foundation.Cut

/-! The bracketed hosts CPython 3.11.10 reads: what its `urllib.parse._check_bracketed_host` and
`ipaddress.IPv6Address` accept. -/
namespace XtrMessenger.Url
open Foundation

def isHexDigit (c : Char) : Bool :=
  c.isDigit || ('a' ≤ c && c ≤ 'f') || ('A' ≤ c && c ≤ 'F')

/-- `IPv4Address._parse_octet`: at most three digits without leading zeros, up to 255. -/
def isOctet (octet : List Char) : Bool :=
  octet ≠ [] && octet.all Char.isDigit && octet.length ≤ 3 &&
    (octet = ['0'] || octet.head? ≠ some '0') &&
    octet.foldl (fun n c => 10 * n + (c.toNat - '0'.toNat)) 0 ≤ 255

def isIPv4Address (s : List Char) : Bool :=
  let octets := s.splitOn '.'
  octets.length = 4 && octets.all isOctet

/-- `IPv6Address._parse_hextet`. -/
def isHextet (hextet : List Char) : Bool :=
  hextet ≠ [] && hextet.all isHexDigit && hextet.length ≤ 4

/-- The parts on one side of a `::`: all hextets, or the one empty part at an end. -/
def hextetsBeside (parts : List (List Char)) : Option Nat :=
  if parts = [[]] then some 0
  else if parts.all isHextet then some parts.length
  else none

/-- `IPv6Address._ip_int_from_string`, up to the number it computes. -/
def isIPv6Number (s : List Char) : Bool :=
  let parts := s.splitOn ':'
  let last := parts.getLastD []
  -- an IPv4 suffix is two hextets, whichever they are
  let parts' := if '.' ∈ last then parts.dropLast ++ [['0'], ['0']] else parts
  let inner := parts'.tail.dropLast
  let skip := 1 + inner.findIdx List.isEmpty
  3 ≤ parts.length && ('.' ∉ last || isIPv4Address last) && parts'.length ≤ 9 &&
    match inner.count [] with
    | 0 => parts'.length = 8 && parts'.all isHextet
    | 1 =>
      match hextetsBeside (parts'.take skip), hextetsBeside (parts'.drop (skip + 1)) with
      | some hi, some lo => hi + lo < 8
      | _, _ => false
    | _ => false

/-- `IPv6Address(s)` is built: an address and, after a `%`, a scope. -/
def isIPv6Address (s : List Char) : Bool :=
  let (address, scope) := cut '%' s
  '/' ∉ s && ('%' ∉ s || (scope ≠ [] && '%' ∉ scope)) && isIPv6Number address

/-- `re.match(r"\Av[a-fA-F0-9]+\..+\Z", hostname)`. -/
def isIPvFuture (hostname : List Char) : Bool :=
  let version := hostname.tail.takeWhile isHexDigit
  let rest := hostname.tail.dropWhile isHexDigit
  hostname.head? = some 'v' && version ≠ [] && rest.head? = some '.' && rest.tail ≠ [] &&
    '\n' ∉ rest.tail

/-- `_check_bracketed_host` returns: an IPvFuture or an IPv6 address stands in the brackets. -/
def isBracketedHost (hostname : List Char) : Bool :=
  if hostname.head? = some 'v' then isIPvFuture hostname else isIPv6Address hostname

example : isBracketedHost "fe80::1%eth0".toList = true := by decide
example : isBracketedHost "::ffff:127.0.0.1".toList = true := by decide
example : isBracketedHost "127.0.0.1".toList = false := by decide

end XtrMessenger.Url
