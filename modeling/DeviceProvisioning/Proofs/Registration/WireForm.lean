import DeviceProvisioning.Proofs.Json.Record
import DeviceProvisioning.Proofs.Time.Timestamp
import DeviceProvisioning.Registration.Request

/-!
# The written form of what is read

A body is accepted in many forms and written in one.  What is read obeys what its readers check
(`Record.Sound`): an error code has sixty-four bits, a date is one of the calendar, and a payload is
no null and nested no deeper than a reader goes.  Whatever obeys this is read back from what is
written for it, if its payload holds no floating-point number (`Record.reads_toJson`).

Together they say that a form that is accepted leads to one that is accepted as well and means the
same.  Nothing is asked of the text that has been read, so this holds of every form: any order of
the members, others among them, an array, a status as the only key of an object, a null for what is
absent, and every spelling of a date.
-/

namespace DeviceProvisioning.Registration

open Json (Fits FloatFree InRange Reader Symbols maxDepth)
open Json.Reader (Keeps Present Reads Written)
open Text (Octets)

/-- **A value with a stable form**: what is written for it is read, as the same value, and what is
written for that is the same text. -/
def Stable {α : Type} (read : Reader α) (write : α → Json) (a : α) : Prop :=
  ∃ again, read.run (Text.Utf8.decode (Text.Utf8.encode (write a).render)) = some again ∧
    again = a ∧ (write again).render = (write a).render

theorem Stable.of_reads {α : Type} {read : Reader α} {write : α → Json} {a : α}
    (h : Reads read maxDepth (write a) a) : Stable read write a :=
  ⟨a, h.run, rfl, rfl⟩

/-! ## Fields -/

section Fields

variable {depth : Nat} {s rest : Symbols}

/-- A date that is read is one of the calendar. -/
theorem valid_of_instant {t : Time.Timestamp} (h : Record.instant depth s = some (t, rest)) :
    t.Valid := by
  obtain ⟨⟨text, s'⟩, -, h⟩ := Option.bind_eq_some_iff.1 h
  obtain ⟨t', hparse, h⟩ := Option.bind_eq_some_iff.1 h
  obtain ⟨rfl, -⟩ := Prod.mk.inj (Option.some.inj h)
  exact Time.Timestamp.valid_of_parse? hparse

theorem written_str {o : Option String} :
    ∀ s ∈ o, Reads .text depth (.str s) s ∧ Present (.str s) :=
  fun s _ => ⟨Reader.reads_text s, Reader.present_str s⟩

theorem written_instant {o : Option Time.Timestamp} (h : ∀ t ∈ o, t.Valid) :
    ∀ t ∈ o, Reads Record.instant depth (.str t.render) t ∧ Present (.str t.render) :=
  fun t ht => ⟨(Reader.reads_text t.render).filterMap (Time.Timestamp.parse?_render (h t ht)),
    Reader.present_str _⟩

theorem written_any {o : Option Json} (h : ∀ v ∈ o, Fits depth v ∧ v ≠ .null)
    (hfree : ∀ v ∈ o, FloatFree v) : ∀ v ∈ o, Reads .any depth v v ∧ Present v :=
  fun v hv => ⟨Reader.reads_any (h v hv).1 (hfree v hv),
    Reader.present_of_floatFree (hfree v hv) (h v hv).2⟩

theorem reads_status (status : Status) : Reads Status.reader depth status.toJson status :=
  Reader.reads_choice status.ofName?_name

end Fields

/-! ## Records -/

namespace Record

/-- **What a reader of records gives** that may open so many brackets inside a record. -/
structure Sound (depth : Nat) (r : Record) : Prop where
  errorCode : ∀ n ∈ r.errorCode, InRange n ∧ n < (UInt64.size / 2 : Nat)
  created : ∀ t ∈ r.created, t.Valid
  lastUpdated : ∀ t ∈ r.lastUpdated, t.Valid
  payload : ∀ v ∈ r.payload, Fits depth v ∧ v ≠ .null

variable {depth : Nat} {r : Record}

/-- **A record that is read is sound.** -/
theorem sound_of_reader {s rest : Symbols} (h : reader (depth + 1) s = some (r, rest)) :
    r.Sound depth := by
  have hblank : Sound depth {} := by constructor <;> exact fun _ h => by cases h
  refine Reader.holds_of_record ?_ hblank h
  simp only [fields, List.forall_mem_cons]
  refine ⟨?id, ?hub, ?device, ?status, ?substatus, ?code, ?message, ?creation, ?update,
    ?etag, ?custom, nofun⟩
  case code =>
    exact Keeps.map fun hread _ h =>
      { h with errorCode := Reader.forall_of_optional hread Reader.range_of_integer }
  case creation =>
    exact Keeps.map fun hread _ h =>
      { h with created := Reader.forall_of_optional hread valid_of_instant }
  case update =>
    exact Keeps.map fun hread _ h =>
      { h with lastUpdated := Reader.forall_of_optional hread valid_of_instant }
  case custom =>
    exact Keeps.map fun hread _ h => { h with payload := Reader.fits_of_optional hread }
  case id | hub | device | status | substatus | message | etag =>
    exact Keeps.map fun _ _ h => ⟨h.errorCode, h.created, h.lastUpdated, h.payload⟩

/-- **A sound record is read back.** -/
theorem reads_toJson (h : r.Sound depth) (hfree : ∀ v ∈ r.payload, FloatFree v) :
    Reads reader (depth + 1) r.toJson r := by
  refine Reader.reads_record ?_ (by decide)
  refine .optional rfl written_str rfl (.optional rfl written_str rfl (.optional rfl written_str rfl
    (.optional rfl (fun status _ => ⟨reads_status status, Reader.present_str _⟩) rfl
    (.optional rfl written_str rfl (.optional rfl ?code rfl (.optional rfl written_str rfl
    (.optional rfl (written_instant h.created) rfl
    (.optional rfl (written_instant h.lastUpdated) rfl (.optional rfl written_str rfl
    (.optional Option.map_id'.symm (written_any h.payload hfree) rfl (.nil _)))))))))))
  exact fun n hn => ⟨Reader.reads_integer (h.errorCode n hn).1 (h.errorCode n hn).2,
    Reader.present_of_floatFree (.int n) nofun⟩

end Record

/-- **What a reader of requests gives** that may open so many brackets inside a request. -/
def Request.Sound (depth : Nat) (r : Request) : Prop :=
  ∀ v ∈ r.payload, Fits depth v ∧ v ≠ .null

/-- **A request that is read is sound.** -/
theorem Request.sound_of_reader {depth : Nat} {s rest : Symbols} {r : Request}
    (h : Request.reader (depth + 1) s = some (r, rest)) : r.Sound depth := by
  refine Reader.holds_of_record ?_ (fun _ h => by cases h) h
  simp only [Request.fields, List.forall_mem_cons]
  exact ⟨Keeps.map fun _ _ h => h, Keeps.map fun hread _ _ => Reader.fits_of_optional hread, nofun⟩

/-- **A sound request is read back.** -/
theorem Request.reads_toJson {depth : Nat} {r : Request} (h : r.Sound depth)
    (hfree : ∀ v ∈ r.payload, FloatFree v) :
    Reads Request.reader (depth + 1) r.toJson r :=
  Reader.reads_record
    (.set (Reader.reads_text r.registrationId)
      (.optional Option.map_id'.symm (written_any h hfree) rfl (.nil _))) (by decide)

/-- **What a reader of outcomes gives** that may open so many brackets inside its record. -/
def Outcome.Sound (depth : Nat) (o : Outcome) : Prop :=
  ∀ r ∈ o.record, r.Sound depth

/-- **An outcome that is read is sound.** -/
theorem Outcome.sound_of_reader {depth : Nat} {s rest : Symbols} {o : Outcome}
    (h : Outcome.reader (depth + 2) s = some (o, rest)) : o.Sound depth := by
  refine Reader.holds_of_record ?_ (fun _ h => by cases h) h
  simp only [Outcome.fields, List.forall_mem_cons]
  exact ⟨Keeps.map fun _ _ h => h, Keeps.map fun _ _ h => h,
    Keeps.map fun hread _ _ => Reader.forall_of_optional hread Record.sound_of_reader, nofun⟩

/-- **A sound outcome is read back.** -/
theorem Outcome.reads_toJson {depth : Nat} {o : Outcome} (h : o.Sound depth)
    (hfree : ∀ r ∈ o.record, ∀ v ∈ r.payload, FloatFree v) :
    Reads Outcome.reader (depth + 2) o.toJson o :=
  Reader.reads_record
    (.optional rfl written_str rfl (.set (reads_status o.status)
      (.optional rfl (fun r hr => ⟨Record.reads_toJson (h r hr) (hfree r hr),
        Reader.present_obj _⟩) rfl (.nil _)))) (by decide)

/-- **What is read has a stable form.**  Whatever text it is that is read as a request, a record or
an outcome, if the payload holds no floating-point number, what is written for it is read as the
same, and writing that once more gives the same text. -/
theorem read_again (octets : Octets) :
    (∀ r : Request, Request.reader.run (Text.Utf8.decode octets) = some r →
      (∀ v ∈ r.payload, FloatFree v) → Stable Request.reader Request.toJson r) ∧
    (∀ r : Record, Record.reader.run (Text.Utf8.decode octets) = some r →
      (∀ v ∈ r.payload, FloatFree v) → Stable Record.reader Record.toJson r) ∧
    ∀ o : Outcome, Outcome.reader.run (Text.Utf8.decode octets) = some o →
      (∀ r ∈ o.record, ∀ v ∈ r.payload, FloatFree v) → Stable Outcome.reader Outcome.toJson o := by
  refine ⟨fun r h hfree => ?_, fun r h hfree => ?_, fun o h hfree => ?_⟩
  · obtain ⟨rest, hread⟩ := Reader.exists_of_run h
    exact .of_reads (Request.reads_toJson (Request.sound_of_reader hread) hfree)
  · obtain ⟨rest, hread⟩ := Reader.exists_of_run h
    exact .of_reads (Record.reads_toJson (Record.sound_of_reader hread) hfree)
  · obtain ⟨rest, hread⟩ := Reader.exists_of_run h
    exact .of_reads (Outcome.reads_toJson (Outcome.sound_of_reader hread) hfree)

/-- A request in the form of an array; a record with its members in another order; and an outcome
with an unknown member, whose record is an array with the status as the only key of an object, a
null for what is absent, and a leap second west of Greenwich in the last night of a year. -/
theorem read_again_relaxed :
    let request : Request :=
      { registrationId := "dev",
        payload := some (.obj [("a", .arr [.null]), ("n", .int 18446744073709551615)]) }
    let record : Record :=
      { lastUpdated := some ⟨⟨12024, 2, 29⟩, 0, 0, 0, 0⟩, payload := some (.bool true) }
    let outcome : Outcome :=
      { status := .assigned,
        record := some
          { registrationId := some "dev", status := some .assigned, errorCode := some (-1),
            created := some ⟨⟨2025, 1, 1⟩, 0, 29, 60, 0⟩ } }
    Stable Request.reader Request.toJson request ∧ Stable Record.reader Record.toJson record ∧
      Stable Outcome.reader Outcome.toJson outcome := by
  intro request record outcome
  have hrequest : Request.reader.run (Text.symbols
      "[\"dev\", \x7b\"n\":18446744073709551615, \"a\":[null]\x7d]") = some request := by
    decide +kernel
  have hrecord : Record.reader.run (Text.symbols
      "\x7b\"payload\": true, \"lastUpdatedDateTimeUtc\":\"+12024-2-29t0:0:0utc\"\x7d")
        = some record := by
    decide +kernel
  have houtcome : Outcome.reader.run (Text.symbols
      ("\x7b\"registrationState\":[\"dev\", null, null, \x7b\"assigned\":null\x7d, null, -1, null, "
        ++ "\"2024-12-31 23:59:60-00:30\"], \"x\":[1e999], \"status\":\"assigned\"\x7d"))
        = some outcome := by
    decide +kernel
  rw [Text.symbols, ← Text.Utf8.decode_encode] at hrequest hrecord houtcome
  refine ⟨(read_again _).1 request hrequest ?_, (read_again _).2.1 record hrecord ?_,
    (read_again _).2.2 outcome houtcome ?_⟩
  · rintro v ⟨⟩
    refine .obj ?_
    simp only [List.forall_mem_cons]
    refine ⟨.arr ?_, .int _, List.forall_mem_nil _⟩
    exact List.forall_mem_singleton.2 .null
  · rintro v ⟨⟩
    exact .bool true
  · rintro r ⟨⟩ v hv
    cases hv

end DeviceProvisioning.Registration
