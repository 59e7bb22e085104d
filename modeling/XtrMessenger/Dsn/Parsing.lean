import XtrMessenger.Dsn.Shown

/-! Reading the DSN that selects a transport. -/
namespace XtrMessenger
open Foundation Url

/-- A parsed DSN. -/
structure Dsn where
  /-- The DSN as written. -/
  raw : List Char
  /-- What a factory dispatches on. -/
  scheme : List Char
  /-- The DSN without its options: the server it addresses. -/
  connection : List Char
  deriving DecidableEq

namespace Dsn

def separator : List Char := "://".toList

def parse [Unicode] (raw : List Char) : Except InvalidDsnError Dsn :=
  if !raw.tails.any separator.isPrefixOf then .error (invalidDsnError raw none)
  else match urlsplit raw with
  | none => .error (invalidDsnError raw (some "could not be read as a URL".toList))
  | some split =>
    if split.scheme = [] then .error (invalidDsnError raw none)
    else if '@' ∈ split.path ++ '?' :: split.query ++ '#' :: split.fragment then
      .error (invalidDsnError raw (some
        "carries an '@' beyond its authority; percent-encode the credentials".toList))
    else
      let scheme := Unicode.lower split.scheme
      .ok { raw, scheme, connection := scheme ++ separator ++ split.netloc ++ split.path }

def TransportConfig.parsed [Unicode] (config : TransportConfig) : Except InvalidDsnError Dsn :=
  parse config.dsn

end Dsn
end XtrMessenger
