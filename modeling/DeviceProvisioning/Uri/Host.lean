import DeviceProvisioning.Text.FormEncoding
import DeviceProvisioning.Uri.Ipv6

/-!
# Hosts

Outside the schemes of the web a host is **opaque**: an IPv6 address in brackets, or any text
without the characters that delimit a URI; control characters and characters outside ASCII
are percent encoded and all else stays as it is written.

The schemes of the web restrict a host to domain names and addresses.  No broker is reached
by them, so of such a host only its validity is told (`isDomain`).
-/

namespace DeviceProvisioning.Uri

open DeviceProvisioning.Text DeviceProvisioning.Number

/-- The characters that no host may hold. -/
def isForbidden (c : Char) : Bool :=
  c ∈ ['\x00', '\t', '\n', '\r', ' ', '#', '/', ':', '<', '>', '?', '@', '[', '\\', ']', '^', '|']

/-- An octet of an opaque host, written. -/
def encodeOctet (b : UInt8) : List Char :=
  if b < 0x20 || 0x7F ≤ b then Form.escape b else [Char.ofNat b.toNat]

/-- The groups of an IPv6 address in brackets; the text begins with a bracket. -/
def bracketed? (host : List Char) : Option (List Nat) :=
  match host, host.reverse with
  | '[' :: inner, ']' :: _ => Ipv6.parse? inner.dropLast
  | _, _ => none

/-- **An opaque host, in the form in which it is passed on.** -/
def opaqueHost? (host : List Char) : Option String :=
  match host with
  | '[' :: _ => (bracketed? host).map fun gs => String.ofList ('[' :: (Ipv6.render gs ++ [']']))
  | _ =>
    if host.any isForbidden then none
    else some (String.ofList ((Utf8.encode (String.ofList host)).flatMap encodeOctet))

/-- A number of an IPv4 address: hexadecimal after `0x`, octal after another `0`. -/
def ipv4Number? (part : List Char) : Option Nat :=
  match part with
  | [] => none
  | '0' :: 'x' :: rest | '0' :: 'X' :: rest => Number.ofDigits? 16 rest
  | '0' :: rest => Number.ofDigits? 8 rest
  | digits => Number.ofDigits? 10 digits

/-- Whether the numbers make up an IPv4 address: all but the last below 256, and the last
within what is left. -/
def isIpv4 (parts : List (List Char)) : Bool :=
  match parts.mapM ipv4Number? with
  | some numbers =>
    numbers.length ≤ 4 && numbers.dropLast.all (· ≤ 255)
      && (numbers.getLast?.getD 0) < Nat.pow 256 (5 - numbers.length)
  | none => false

/-- **Whether the host may stand in a web address.** -/
def isDomain (host : List Char) : Bool :=
  match host with
  | '[' :: _ => (bracketed? host).isSome
  | _ =>
    let octets := Form.unescape (Utf8.encode (String.ofList host))
    match Utf8.decode? octets with
    | none => false
    | some text =>
      let cs := text.toList
      let labels := cs.splitOn '.'
      let parts := if labels.getLast? = some [] ∧ 1 < labels.length then labels.dropLast else labels
      let last := parts.getLast?.getD []
      let numeric := last ≠ [] && (last.all Char.isDigit || (ipv4Number? last).isSome)
      cs ≠ [] && !cs.any (fun c => isForbidden c || c == '%' || c.toNat < 0x20 || c == '\x7f')
        && (!numeric || isIpv4 parts)

end DeviceProvisioning.Uri
