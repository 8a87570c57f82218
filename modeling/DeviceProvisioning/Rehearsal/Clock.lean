import DeviceProvisioning.Rehearsal.Turn

/-!
# The course of a rehearsal

Jobs take their turns in the order in which they stand in the queue, until nobody has
anything to do (`World.settled`).  The clock moves only then, and it stops at every alarm on
its way (`World.moveTo`): at the end of the manager's patience, of a pause, or of a time
limit.
-/

namespace DeviceProvisioning.Rehearsal

open Time (Millis)

namespace World

/-! ## Turn after turn -/

/-- **Jobs take their turns** until nobody has anything to do; the first argument bounds the
number of turns. -/
def settle : Nat → World → World
  | 0, w => w
  | fuel + 1, w =>
    match w.queue with
    | [] => w
    | id :: rest => settle fuel (({ w with queue := rest }).poll id)

/-! ## Time -/

/-- When a job wants to be woken. -/
def alarms (w : World) : Job → List Millis
  | .manager => w.manager.deadline.toList
  | .registrant r => r.resumeAt.toList ++ (Registrant.limitAt? r).toList
  | _ => []

/-- The next alarm. -/
def nextAlarm? (w : World) : Option Millis :=
  (w.jobs.flatMap fun (_, job) => w.alarms job).min?

/-- A number of turns that no step of a rehearsal needs. -/
def manyTurns : Nat := 100000

/-- Everybody takes their turns. -/
def settled (w : World) : World :=
  w.settle manyTurns

/-- **The clock moves on to `target`,** stopping at every alarm on its way; the first
argument bounds the number of stops. -/
def moveTo : Nat → Millis → World → World
  | 0, target, w => { w with now := target }
  | fuel + 1, target, w =>
    match w.nextAlarm? with
    | none => { w with now := target }
    | some alarm =>
      if target < alarm then { w with now := target }
      else
        let w := { w with now := max w.now alarm }
        moveTo fuel target
          ((w.wakeAll fun job => (w.alarms job).any (· ≤ w.now)).settled)

end World
end DeviceProvisioning.Rehearsal
