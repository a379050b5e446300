import PolicyLint.Proofs.Json.Flat
import PolicyLint.Proofs.Json.Records
import PolicyLint.Proofs.Json.RoundTrip
import PolicyLint.Proofs.Time.Stamps
import PolicyLint.Report.Reader
import PolicyLint.Report.Writer

/-!
# Reports are read back

A report of the known schema, made at moments of universal time, is written and read back as it was, if its
numbers have the widths of their fields and its payloads are flat. The records of a report are gone through
once each, field by field in the order of writing.
-/
namespace PolicyLint.Json.Decode.Record
open Lint
set_option autoImplicit false

variable {σ α : Type} {name : String} {presence : Presence} {fs : List (Field σ)} {ms : List (String × Value)}
  {s s' : σ}

namespace Written

theorem member {d : Decode α} {set : σ → α → σ} {v : Value} {a : α} (hRead : d v.canonical = .ok a)
    (hRest : Written fs ms (set s a) s') : Written (field name presence d set :: fs) ((name, v) :: ms) s s' := by
  have hField : (field name presence d set).read v.canonical s = .ok (set s a) :=
    congrArg (Except.map (set s)) hRead
  exact .present hField hRest

/-- A part that is empty before may be left out. -/
theorem optionalMember {d : Decode α} {set : σ → Option α → σ} {write : α → Value} {o : Option α}
    (hPresence : presence ≠ .required) (hEmpty : set s none = s)
    (hRead : ∀ a ∈ o, optional d (write a).canonical = .ok (some a)) (hRest : Written fs ms (set s o) s') :
    Written (field name presence (optional d) set :: fs) (Lint.optionalMember name write o ++ ms) s s' := by
  cases o with
  | none => exact .absent hPresence (hEmpty ▸ hRest)
  | some a => exact .member (hRead a rfl) hRest

theorem dataMember {set : σ → Value → σ} {v : Value} (hEmpty : set s .null = s) (hFlat : v.canonical = v)
    (hRest : Written fs ms (set s v) s') :
    Written (field "data" .defaulted Report.any set :: fs) (Lint.dataMember v ++ ms) s s' := by
  cases v with
  | null => exact .absent Presence.noConfusion (hEmpty ▸ hRest)
  | _ => exact .member (congrArg Except.ok hFlat) hRest

end Written

end PolicyLint.Json.Decode.Record

namespace PolicyLint
open Json Json.Decode Text Lint Policy Time

structure RunTimes.Writable (r : RunTimes) : Prop where
  started : r.started.IsUniversal
  finished : r.finished.IsUniversal
  milliseconds : r.milliseconds < Decimal.word64

namespace Lint

structure Counts.Writable (c : Counts) : Prop where
  info : c.info < Decimal.word32
  warn : c.warn < Decimal.word32
  error : c.error < Decimal.word32

structure Location.Writable (l : Location) : Prop where
  line : ∀ n ∈ l.line, n < Decimal.word32
  column : ∀ n ∈ l.column, n < Decimal.word32

structure Finding.Writable (f : Finding) : Prop where
  location : ∀ place ∈ f.location, place.Writable
  flat : f.data.IsFlat
  words : f.data.HasWords

structure Summary.Writable (s : Summary) : Prop where
  licensesDeclared : s.licensesDeclared < Decimal.word32
  clarifications : s.clarifications < Decimal.word32
  skipEntries : s.skipEntries < Decimal.word32
  total : s.findingsTotal < Decimal.word32
  emitted : s.findingsEmitted < Decimal.word32

end Lint

/-- Nothing in the report is changed by writing and reading it. -/
structure Report.Writable (r : Report) : Prop where
  schema : r.schema = Report.schemaName
  run : r.run.Writable
  counts : r.counts.Writable
  findings : ∀ f ∈ r.findings, f.Writable
  summary : r.summary.Writable

namespace Report

theorem anyOrder_toolRecord : toolRecord.AnyOrder := by simp [Record.AnyOrder, toolRecord]

theorem anyOrder_runRecord : runRecord.AnyOrder := by simp [Record.AnyOrder, runRecord]

theorem anyOrder_countsRecord : countsRecord.AnyOrder := by simp [Record.AnyOrder, countsRecord]

theorem anyOrder_locationRecord : locationRecord.AnyOrder := by simp [Record.AnyOrder, locationRecord]

theorem anyOrder_findingRecord : findingRecord.AnyOrder := by simp [Record.AnyOrder, findingRecord]

theorem anyOrder_summaryRecord : summaryRecord.AnyOrder := by simp [Record.AnyOrder, summaryRecord]

theorem anyOrder_record : record.AnyOrder := by simp [Record.AnyOrder, record]

theorem natural32_ofNat {n : Nat} (h : n < Decimal.word32) : natural32 (Value.ofNat n).canonical = .ok n :=
  if_pos h

theorem natural64_ofNat {n : Nat} (h : n < Decimal.word64) : natural64 (Value.ofNat n).canonical = .ok n :=
  if_pos h

theorem optional_natural32_ofNat {n : Nat} (h : n < Decimal.word32) :
    optional natural32 (Value.ofNat n).canonical = .ok (some n) :=
  congrArg (Except.map some) (natural32_ofNat h)

theorem severity_name (s : Severity) : severity (Value.string s.name).canonical = .ok s := by
  cases s <;> rfl

theorem verdictChoice_name (v : Verdict) : verdictChoice (Value.string v.name).canonical = .ok v := by
  cases v <;> rfl

theorem stamp_render {s : Stamp} (h : s.IsUniversal) : stamp (Value.string s.render).canonical = .ok s := by
  rw [canonical_string, stamp, Stamp.parse_render_of_isUniversal h]

theorem read_tool (t : Tool) : toolRecord.read t.toJson.canonical = .ok t :=
  Record.read_canonical anyOrder_toolRecord <| .member rfl <| .member rfl <| .nil _

theorem read_run {t : RunTimes} (h : t.Writable) : runRecord.read t.toJson.canonical = .ok t :=
  Record.read_canonical anyOrder_runRecord <|
    .member (stamp_render h.started) <| .member (stamp_render h.finished) <|
    .member (natural64_ofNat h.milliseconds) <| .nil _

theorem read_counts {c : Counts} (h : c.Writable) : countsRecord.read c.toJson.canonical = .ok c :=
  Record.read_canonical anyOrder_countsRecord <|
    .member (natural32_ofNat h.info) <| .member (natural32_ofNat h.warn) <|
    .member (natural32_ofNat h.error) <| .nil _

theorem read_location {l : Location} (h : l.Writable) : locationRecord.read l.toJson.canonical = .ok l := by
  rw [Location.toJson, List.append_assoc, ← List.append_nil (optionalMember "col" _ _)]
  exact Record.read_canonical anyOrder_locationRecord <|
    .member rfl <|
    .optionalMember Presence.noConfusion rfl (fun n hn => optional_natural32_ofNat (h.line n hn)) <|
    .optionalMember Presence.noConfusion rfl (fun n hn => optional_natural32_ofNat (h.column n hn)) <| .nil _

theorem read_optional {α : Type} {r : Record α} {ms : List (String × Value)} {a : α}
    (h : r.read (Value.object ms).canonical = .ok a) :
    optional r.read (Value.object ms).canonical = .ok (some a) := by
  rw [canonical_object, Value.ofMembers] at h ⊢
  exact congrArg (Except.map some) h

theorem read_finding {f : Finding} (h : f.Writable) : findingRecord.read f.toJson.canonical = .ok f := by
  rw [Finding.toJson]
  simp only [List.append_assoc]
  rw [← List.append_nil (dataMember _)]
  exact Record.read_canonical anyOrder_findingRecord <|
    .member (severity_name _) <| .member rfl <| .member rfl <| .member rfl <|
    .optionalMember Presence.noConfusion rfl (fun l hl => read_optional (read_location (h.location l hl))) <|
    .optionalMember Presence.noConfusion rfl (fun _ _ => rfl) <|
    .optionalMember Presence.noConfusion rfl (fun _ _ => rfl) <|
    .optionalMember Presence.noConfusion rfl (fun _ _ => rfl) <|
    .dataMember rfl h.flat.canonical_eq <| .nil _

theorem read_summary {s : Summary} (h : s.Writable) : summaryRecord.read s.toJson.canonical = .ok s := by
  rw [Summary.toJson, ← List.append_nil (optionalMember "truncated_reason" _ _)]
  exact Record.read_canonical anyOrder_summaryRecord <|
    .member rfl <| .member rfl <| .member (list_canonical fun _ _ => rfl) <|
    .member (natural32_ofNat h.licensesDeclared) <| .member (natural32_ofNat h.clarifications) <|
    .member (natural32_ofNat h.skipEntries) <| .member (natural32_ofNat h.total) <|
    .member (natural32_ofNat h.emitted) <|
    .optionalMember Presence.noConfusion rfl (fun _ _ => rfl) <| .nil _

theorem read_report {r : Report} (h : r.Writable) : record.read r.toJson.canonical = .ok r :=
  Record.read_canonical anyOrder_record <|
    .member rfl <| .member (read_tool r.tool) <|
    .member (read_run h.run) <| .member (verdictChoice_name r.verdict) <| .member (read_counts h.counts) <|
    .member (list_canonical fun f hf => read_finding (h.findings f hf)) <|
    .member (read_summary h.summary) <| .nil _

theorem schemaOf_toJson (r : Report) : schemaOf r.toJson.canonical = r.schema := by
  rw [schemaOf, toJson, get?_canonical_object (by simp) List.mem_cons_self]
  rfl

theorem fits_small {n : Nat} (h : n < Decimal.word32) (room : Nat) : (Value.ofNat n).Fits room :=
  Value.fits_ofNat (Nat.lt_trans h (by decide)) room

theorem fits_optionalMember {α : Type} {key : String} {write : α → Value} {o : Option α} {room : Nat}
    (h : ∀ a ∈ o, (write a).Fits room) : ∀ m ∈ optionalMember key write o, m.2.Fits room := by
  cases o with
  | none => exact List.forall_mem_nil _
  | some a => exact List.forall_mem_singleton.mpr (h a rfl)

theorem fits_dataMember {v : Value} {room : Nat} (h : v.Fits room) : ∀ m ∈ dataMember v, m.2.Fits room := by
  cases v with
  | null => exact List.forall_mem_nil _
  | _ => exact List.forall_mem_singleton.mpr h

theorem fits_strings (xs : List String) (room : Nat) : (strings xs).Fits (room + 1) := by
  refine .array _ _ fun v hv => ?_
  obtain ⟨x, -, rfl⟩ := List.mem_map.mp hv
  exact .string room x

theorem fits_location {l : Location} (h : l.Writable) (room : Nat) : l.toJson.Fits (room + 1) := by
  refine .object _ _ ?_
  simp only [List.forall_mem_append, List.forall_mem_singleton]
  exact ⟨⟨.string room _, fits_optionalMember fun n hn => fits_small (h.line n hn) room⟩,
    fits_optionalMember fun n hn => fits_small (h.column n hn) room⟩

theorem fits_finding {f : Finding} (h : f.Writable) (room : Nat) : f.toJson.Fits (room + 2) := by
  refine .object _ _ ?_
  have hText : ∀ s, (Value.string s).Fits (room + 1) := .string (room + 1)
  simp only [List.forall_mem_append, List.forall_mem_cons, List.not_mem_nil, false_implies, implies_true,
    and_true]
  refine ⟨⟨⟨⟨⟨⟨hText _, hText _, hText _, hText _⟩, ?_⟩, ?_⟩, ?_⟩, ?_⟩, ?_⟩
  · exact fits_optionalMember fun l hl => fits_location (h.location l hl) room
  · exact fits_optionalMember fun s _ => hText s
  · exact fits_optionalMember fun s _ => hText s
  · exact fits_optionalMember fun s _ => hText s
  · exact fits_dataMember (h.flat.fits h.words room)

theorem fits_summary {s : Summary} (h : s.Writable) (room : Nat) : s.toJson.Fits (room + 2) := by
  refine .object _ _ ?_
  have hText : ∀ s, (Value.string s).Fits (room + 1) := .string (room + 1)
  simp only [List.forall_mem_append, List.forall_mem_cons, List.not_mem_nil, false_implies, implies_true,
    and_true]
  exact ⟨⟨hText _, hText _, fits_strings _ _, fits_small h.licensesDeclared _, fits_small h.clarifications _,
    fits_small h.skipEntries _, fits_small h.total _, fits_small h.emitted _⟩,
    fits_optionalMember fun s _ => hText s⟩

theorem fits_toJson {r : Report} (h : r.Writable) : r.toJson.Fits maxNesting := by
  have hText : ∀ s room, (Value.string s).Fits room := fun s room => .string room s
  have hTool : r.tool.toJson.Fits 126 := .object _ _ (by simp)
  have hRun : r.run.toJson.Fits 126 := .object _ _ (by simp [Value.fits_ofNat h.run.milliseconds])
  have hCounts : r.counts.toJson.Fits 126 :=
    .object _ _ (by simp [fits_small h.counts.info, fits_small h.counts.warn, fits_small h.counts.error])
  have hFindings : (Value.array (r.findings.map Finding.toJson)).Fits 126 := by
    refine .array _ _ fun v hv => ?_
    obtain ⟨f, hf, rfl⟩ := List.mem_map.mp hv
    exact fits_finding (h.findings f hf) _
  refine .object _ _ ?_
  simp only [List.forall_mem_cons, List.not_mem_nil, false_implies, implies_true, and_true]
  exact ⟨hText _ _, hTool, hRun, hText _ _, hCounts, hFindings, fits_summary h.summary _⟩

theorem parse_serialize_of_writable {r : Report} (h : r.Writable) : parse r.serialize = .ok r := by
  rw [parse, serialize, parse_pretty (fits_toJson h)]
  simp only [ofJson, schemaOf_toJson, h.schema, if_pos, read_report h]

end Report

end PolicyLint
