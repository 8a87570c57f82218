import DeviceProvisioning.Number.Decimal
import DeviceProvisioning.Number.Hexadecimal

/-!
# IPv6 addresses

An address is eight groups of sixteen bits.  It is read from groups of one to four
hexadecimal digits joined by colons; one pair of colons may stand for one or more groups of
zero, and the last two groups may be written as an IPv4 address.  It is written in lower
case, with the first of its longest runs of at least two zero groups as a pair of colons.
-/

namespace DeviceProvisioning.Uri.Ipv6

open DeviceProvisioning.Number

/-- One number of an IPv4 address: at most 255, without leading zeros. -/
def octet? (cs : List Char) : Option Nat :=
  match cs with
  | '0' :: _ :: _ => none
  | _ => (readDigits cs).filter (· ≤ 255)

/-- The two groups that an IPv4 address stands for. -/
def ofIpv4? (cs : List Char) : Option (List Nat) :=
  match (cs.splitOn '.').mapM octet? with
  | some [a, b, c, d] => some [a * 256 + b, c * 256 + d]
  | _ => none

/-- Groups joined by single colons, up to the end or up to a pair of colons; in the second
case the text after the pair is returned as well. -/
def groups : Nat → List Char → Option (List Nat × Option (List Char))
  | 0, _ => none
  | fuel + 1, cs =>
    let digits := (cs.take 4).takeWhile fun c => (hexValue? c).isSome
    let group := (digits.filterMap hexValue?).foldl (fun n v => n * 16 + v) 0
    if digits = [] then none
    else match cs.drop digits.length with
      | [] => some ([group], none)
      | '.' :: _ => (ofIpv4? cs).map (·, none)
      | [':'] => none
      | ':' :: ':' :: rest => some ([group], some rest)
      | ':' :: rest => (groups fuel rest).map fun (gs, after) => (group :: gs, after)
      | _ => none

/-- The groups after a pair of colons. -/
def trailing (cs : List Char) : Option (List Nat) :=
  if cs = [] then some []
  else match groups cs.length cs with
    | some (gs, none) => some gs
    | _ => none

/-- **The eight groups of an address.** -/
def parse? (cs : List Char) : Option (List Nat) := do
  let (before, rest) ←
    match cs with
    | ':' :: ':' :: rest => some ([], some rest)
    | _ => groups cs.length cs
  match rest with
  | none => if before.length = 8 then some before else none
  | some rest =>
    let after ← trailing rest
    let written := before.length + after.length
    if written ≤ 7 then some (before ++ List.replicate (8 - written) 0 ++ after) else none

/-- The number of zero groups in front. -/
def zeros (gs : List Nat) : Nat :=
  (gs.takeWhile (· == 0)).length

/-- The length of the longest run of zero groups. -/
def longestRun : List Nat → Nat
  | [] => 0
  | g :: rest => max (zeros (g :: rest)) (longestRun rest)

/-- A group in lower-case hexadecimal digits. -/
def groupText (g : Nat) : List Char :=
  Nat.toDigits 16 g

/-- Groups joined by colons. -/
def joined (gs : List Nat) : List Char :=
  [':'].intercalate (gs.map groupText)

/-- The groups before the first run of `run` zeros, and those after it. -/
def splitAtRun (run : Nat) : List Nat → List Nat × List Nat
  | [] => ([], [])
  | g :: rest =>
    if zeros (g :: rest) = run then ([], (g :: rest).drop run)
    else
      let (before, after) := splitAtRun run rest
      (g :: before, after)

/-- **The written form of eight groups.** -/
def render (gs : List Nat) : List Char :=
  let run := longestRun gs
  if run < 2 then joined gs
  else
    let (before, after) := splitAtRun run gs
    joined before ++ ':' :: ':' :: joined after

end DeviceProvisioning.Uri.Ipv6
