import DeviceProvisioning.Number.Decimal

/-!
# Spans of time

Timeouts and intervals are whole numbers of milliseconds.  A caller can set a keep-alive, a
polling interval or a timeout more finely than that; such spans are left out here.

A span of a second or more is written in seconds, with as many decimal places as it needs; a
shorter one is written in milliseconds, and no time at all as no nanoseconds.
-/

namespace DeviceProvisioning.Time

open DeviceProvisioning.Number

/-- A span of time in milliseconds. -/
abbrev Millis := Nat

namespace Millis

/-- The milliseconds after full seconds, as decimal places. -/
def places (ms : Nat) : List Char :=
  if ms = 0 then [] else '.' :: ((padded 3 ms).reverse.dropWhile (· == '0')).reverse

/-- **The written form of a span.** -/
def render (span : Millis) : String :=
  if 1000 ≤ span then String.ofList (decimal (span / 1000) ++ places (span % 1000)) ++ "s"
  else if span = 0 then "0ns"
  else String.ofList (decimal span) ++ "ms"

end Millis
end DeviceProvisioning.Time
