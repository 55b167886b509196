import LiveLayout.Error
import LiveLayout.Network.Ipv6

/-!
# Addresses

A host and a port to publish on. The machine is on no network. It takes every address of four
bytes for its own, and of those of sixteen bytes the ones that stand for any or for four bytes. It
knows itself by one name, and nobody tells it what other names mean.
-/

namespace LiveLayout.CommandLine

/-- The text in front of the last colon and the text behind it. -/
def splitPort? (text : List Char) : Option (List Char × List Char) :=
  let behind := text.reverse.takeWhile (· ≠ ':')
  if behind.length = text.length then none
  else some (text.take (text.length - behind.length - 1), behind.reverse)

/-- A port, all digits. -/
def plainPort? (text : List Char) : Option Nat :=
  (numberIn? 10 text).filter (· < UInt16.size)

/-- A port, with a plus sign or without. -/
def port? : List Char → Option Nat
  | '+' :: digits => plainPort? digits
  | digits => plainPort? digits

/-- The address between the brackets of a text that ends with a port. -/
def bracketed? : List Char → Option Ipv6
  | '[' :: rest => do
    let address ← Ipv6.parse? (rest.takeWhile (· ≠ ']'))
    match rest.dropWhile (· ≠ ']') with
    | ']' :: ':' :: port => do
      let _ ← plainPort? port
      some address
    | _ => none
  | _ => none

/-- The characters of names. -/
def isNameChar (c : Char) : Bool := c.isAlphanum || c = '-' || c = '_'

/-- The parts of a name between its dots; one dot may stand at the end. -/
def nameParts (name : List Char) : List (List Char) :=
  match (pieces '.' name).reverse with
  | [] :: rest@(_ :: _) => rest.reverse
  | parts => parts.reverse

/-- A host can have this name: one dot, or parts that are not too long, without a dash in front. -/
def isName (name : List Char) : Bool :=
  name == ['.'] ||
    name.head? != some '-' &&
    (nameParts name).all (fun part =>
      0 < part.length && part.length ≤ 63 && part.all isNameChar) &&
    (nameParts name).foldl (fun bytes part => bytes + part.length + 1) 1 ≤ 255

/-- Looks for an address of sixteen bytes on this machine, whose only interface has number 1. -/
def checkIpv6 (address : Ipv6) : Except LinkError Unit :=
  if address.isMulticast then .error .badAddress
  else if address.isUnspecified || address.isMapped then .ok ()
  else if address.isLinkLocal then
    match address.interface? with
    | none => .error .badAddress
    | some number => .error (if number = 1 then .addressUnavailable else .noInterface)
  else .error .addressUnavailable

/-- Looks up a host. -/
def checkHost (host : List Char) : Except LinkError Unit :=
  if host.contains '\x00' then .error .nulInHost
  else if (Ipv4.parse? host).isSome then .ok ()
  else
    match Ipv6.parse? host with
    | some address => checkIpv6 address
    | none =>
      if host.map Char.toLower = "localhost".toList then .ok ()
      else .error (if isName host then .unknownHost else .notHost)

/-- Finds the place that an address names, or says why there is none. -/
def checkAddress (address : String) : Except LinkError Unit :=
  match bracketed? address.toList with
  | some address => checkIpv6 address
  | none =>
    match splitPort? address.toList with
    | none => .error .notAddress
    | some (host, port) =>
      match port? port with
      | none => .error .badPort
      | some _ => checkHost host

end LiveLayout.CommandLine
