import Fleet.Proofs.Canonical
import Fleet.Proofs.JsonText
import Fleet.Proofs.Timestamp
import Fleet.Wire.Provider

/-!
# The wire codec

Every type of the wire is read back from what it is written as. For each there is a `Form`: the columns
by which its records are written, and with them the fields that are skipped when they are empty. A form
is lawful when writing follows the columns, when reading undoes writing, when what was read is a value
that can be held, and when what is written is no more than a text can hold:

    ofJson? (toJson x) = some x                                             (Form.Lawful.reads)
    Legible depthLimit (toJson x)                                        (Form.Lawful.legible)

`WireType` lists the types, and `written_form_is_read_back` says it of all of them at once, of the value
that is written and of the text of that value. -/

namespace Fleet

open Json

/-! ## Forms -/

/-- What is to be known of the written form of a type: the columns of a record, whether the timestamps
in a value are civil, whether what is free-form or of any size in a value can be held, and whether what
is free-form is plain and nests no deeper than a text may. -/
structure Form (α : Type) where
  columns : List (Column α) := []
  Civil : α → Prop := fun _ => True
  IsHeld : α → Prop := fun _ => True
  IsPlain : α → Prop := fun _ => True

/-- A form that a type is written and read by. -/
structure Form.Lawful {α : Type} [Wired α] (f : Form α) : Prop where
  names : ∀ x : α,
    names (Wired.toJson x) = (f.columns.filter fun c => !c.isSkipped x).map (·.name)
  reads : ∀ x : α, f.IsHeld x → f.Civil x → Wired.ofJson? (Wired.toJson x) = some x
  held : ∀ (j : Json) (x : α), Wired.ofJson? j = some x → f.IsHeld x
  legible : ∀ x : α, f.IsHeld x → f.IsPlain x → Legible depthLimit (Wired.toJson x)

/-- A record of which every value is read back, and is legible, has a lawful form. -/
theorem Form.Lawful.of_columns {α : Type} [Wired α] {columns : List (Column α)}
    (hcolumns : ∀ x : α, Wired.toJson x = .obj (members columns x))
    (hreads : ∀ x : α, Wired.ofJson? (Wired.toJson x) = some x)
    (hlegible : ∀ x : α, Legible depthLimit (Wired.toJson x)) : Form.Lawful (α := α) { columns } where
  names x := names_of_eq_members (hcolumns x)
  reads x _ _ := hreads x
  held _ _ _ := trivial
  legible x _ _ := hlegible x

/-! ## The values of fields -/

namespace Json

theorem ofNat_ne_null (n : Nat) : ofNat n ≠ .null := by
  intro h
  cases h

theorem str_ne_null (s : String) : Json.str s ≠ .null := by
  intro h
  cases h

section Fields

variable {name : String} {row : Row} {γ : Type} {x : γ}

theorem text_of_slot {s : String} (h : slot name row = some (.value (.str s), row)) :
    field name asText row = some (s, row) := field_of_slot h rfl

theorem textOr_of_slot {default s : String} (h : slot name row = some (.value (.str s), row)) :
    fieldOr name default asText row = some (s, row) := fieldOr_of_slot h rfl

theorem text?_of_slot {get : γ → Option String}
    (h : slot name row = some ((Column.optional name .str get).slot x, row)) :
    field? name asText row = some (get x, row) :=
  field?_of_slot h str_ne_null fun _ _ => rfl

theorem bool_of_slot {b : Bool} (h : slot name row = some (.value (.bool b), row)) :
    field name asBool row = some (b, row) := field_of_slot h rfl

theorem word16_of_slot {w : UInt16} (h : slot name row = some (.value (ofNat w.toNat), row)) :
    field name asWord16 row = some (w, row) := field_of_slot h (asWord16_ofNat w)

theorem word32_of_slot {w : UInt32} (h : slot name row = some (.value (ofNat w.toNat), row)) :
    field name asWord32 row = some (w, row) := field_of_slot h (asWord32_ofNat w)

theorem word64_of_slot {w : UInt64} (h : slot name row = some (.value (ofNat w.toNat), row)) :
    field name asWord64 row = some (w, row) := field_of_slot h (asWord64_ofNat w)

end Fields

end Json

theorem Texts.ofJson?_toJson (d : Texts) : Texts.ofJson? d.toJson = some d :=
  asDict_ofDict fun _ _ => rfl

@[simp] theorem Texts.legible (d : Texts) (n : Nat) : Legible (n + 1) d.toJson := by
  simp [toJson]

theorem Texts.toJson_ne_null (d : Texts) : d.toJson ≠ .null := by
  intro h
  cases h

theorem Instant.ofJson?_toJson {t : Instant} (h : t.Civil) : Instant.ofJson? t.toJson = some t := by
  unfold Instant.ofJson? Instant.toJson asText
  rw [Option.bind_some, ofText?_toText h]

@[simp] theorem Instant.legible (t : Instant) (d : Nat) : Legible d t.toJson := legible_str d t.toText

@[simp] theorem State.legible (s : State) (d : Nat) : Legible d s.toJson := legible_str d s.name

@[simp] theorem Kind.legible (k : Kind) (d : Nat) : Legible d k.toJson := legible_str d k.name

theorem State.ofJson?_toJson (s : State) : State.ofJson? s.toJson = some s := State.ofName?_name s

theorem Kind.ofJson?_toJson (k : Kind) : Kind.ofJson? k.toJson = some k :=
  congrArg some (ofName_name k)

/-! ## Instances, callers and requests -/

namespace State

def form : Form State := {}

theorem lawful : form.Lawful where
  names _ := rfl
  reads s _ _ := ofJson?_toJson s
  held _ _ _ := trivial
  legible s _ _ := s.legible _

end State

namespace Resources

def form : Form Resources where
  columns :=
    [.always "cpu_millis" fun r => ofNat r.cpuMillis.toNat,
     .always "memory_mb" fun r => ofNat r.memoryMb.toNat,
     .always "disk_mb" fun r => ofNat r.diskMb.toNat,
     .always "replicas" fun r => ofNat r.replicas.toNat,
     .optional "gpu" .str Resources.gpu]

theorem toJson_eq (r : Resources) : r.toJson = .obj (members form.columns r) := by
  simp [toJson, form]

theorem ofJson?_toJson (r : Resources) : Resources.ofJson? r.toJson = some r := by
  rw [toJson_eq]
  refine record_members (by decide) fun row h => ?_
  simp only [form, List.forall_mem_cons, Column.name_always, Column.slot_always,
    Column.name_optional] at h
  obtain ⟨hcpu, hmemory, hdisk, hreplicas, hgpu, -⟩ := h
  rw [bind_of_some (word32_of_slot hcpu), bind_of_some (word32_of_slot hmemory),
    bind_of_some (fieldOr_of_slot hdisk (asWord32_ofNat _)),
    bind_of_some (word32_of_slot hreplicas), bind_of_some (text?_of_slot hgpu)]
  rfl

@[simp] theorem legible (r : Resources) (d : Nat) : Legible (d + 1) r.toJson := by
  rw [toJson_eq]
  exact legible_members (by simp [form])

theorem lawful : form.Lawful :=
  .of_columns toJson_eq ofJson?_toJson fun r => r.legible _

end Resources

namespace Port

def form : Form Port where
  columns :=
    [.always "container" fun p => ofNat p.container.toNat,
     .optional "host" (fun h : UInt16 => ofNat h.toNat) Port.host,
     .always "protocol" fun p => .str p.protocol]

theorem toJson_eq (p : Port) : p.toJson = .obj (members form.columns p) := by
  simp [toJson, form]

theorem ofJson?_toJson (p : Port) : Port.ofJson? p.toJson = some p := by
  rw [toJson_eq]
  refine record_members (by decide) fun row h => ?_
  simp only [form, List.forall_mem_cons, Column.name_always, Column.slot_always,
    Column.name_optional] at h
  obtain ⟨hcontainer, hhost, hprotocol, -⟩ := h
  rw [bind_of_some (word16_of_slot hcontainer),
    bind_of_some (field?_of_slot hhost (fun _ => ofNat_ne_null _) fun _ _ => asWord16_ofNat _),
    bind_of_some (text_of_slot hprotocol)]
  rfl

@[simp] theorem legible (p : Port) (d : Nat) : Legible (d + 1) p.toJson := by
  rw [toJson_eq]
  exact legible_members (by simp [form])

theorem lawful : form.Lawful :=
  .of_columns toJson_eq ofJson?_toJson fun p => p.legible _

end Port

namespace Endpoint

def form : Form Endpoint where
  columns :=
    [.always "url" fun e => .str e.url,
     .always "port" fun e => ofNat e.port.toNat,
     .always "protocol" fun e => .str e.protocol,
     .always "public" fun e => .bool e.isPublic]

theorem toJson_eq (e : Endpoint) : e.toJson = .obj (members form.columns e) := by
  simp [toJson, form]

theorem ofJson?_toJson (e : Endpoint) : Endpoint.ofJson? e.toJson = some e := by
  rw [toJson_eq]
  refine record_members (by decide) fun row h => ?_
  simp only [form, List.forall_mem_cons, Column.name_always, Column.slot_always] at h
  obtain ⟨hurl, hport, hprotocol, hpublic, -⟩ := h
  rw [bind_of_some (text_of_slot hurl), bind_of_some (word16_of_slot hport),
    bind_of_some (text_of_slot hprotocol), bind_of_some (bool_of_slot hpublic)]
  rfl

@[simp] theorem legible (e : Endpoint) (d : Nat) : Legible (d + 1) e.toJson := by
  rw [toJson_eq]
  exact legible_members (by simp [form])

theorem lawful : form.Lawful :=
  .of_columns toJson_eq ofJson?_toJson fun e => e.legible _

end Endpoint

namespace Instance

def form : Form Instance where
  columns :=
    [.always "instance_id" fun i => .str i.id,
     .always "tenant_id" fun i => .str i.tenant,
     .always "name" fun i => .str i.name,
     .always "slug" fun i => .str i.slug,
     .always "provider_name" fun i => .str i.provider,
     .always "provider_ref" fun i => .str i.providerRef,
     .always "region" fun i => .str i.region,
     .always "state" fun i => i.state.toJson,
     .always "image" fun i => .str i.image,
     .always "resources" fun i => i.resources.toJson,
     .always "env" fun i => i.env.toJson,
     .always "ports" fun i => ofItems Port.toJson i.ports,
     .always "endpoints" fun i => ofItems Endpoint.toJson i.endpoints,
     .always "labels" fun i => i.labels.toJson,
     .optional "current_release" .str Instance.currentRelease,
     .optional "suspended_at" Instant.toJson Instance.suspendedAt,
     .always "created_at" fun i => i.createdAt.toJson,
     .always "updated_at" fun i => i.updatedAt.toJson,
     .always "version" fun i => ofNat i.version.toNat]
  Civil i := i.createdAt.Civil ∧ i.updatedAt.Civil ∧ ∀ t, i.suspendedAt = some t → t.Civil

theorem toJson_eq (i : Instance) : i.toJson = .obj (members form.columns i) := by
  simp [toJson, form]

theorem ofJson?_toJson {i : Instance} (hi : form.Civil i) : Instance.ofJson? i.toJson = some i := by
  obtain ⟨hcreated, hupdated, hsuspended⟩ := hi
  rw [toJson_eq]
  refine record_members (by decide) fun row h => ?_
  simp only [form, List.forall_mem_cons, Column.name_always, Column.slot_always,
    Column.name_optional] at h
  obtain ⟨hid, htenant, hname, hslug, hprovider, href, hregion, hstate, himage, hresources, henv,
    hports, hendpoints, hlabels, hrelease, hsuspendedAt, hcreatedAt, hupdatedAt, hversion, -⟩ := h
  rw [bind_of_some (text_of_slot hid), bind_of_some (text_of_slot htenant),
    bind_of_some (text_of_slot hname), bind_of_some (text_of_slot hslug),
    bind_of_some (text_of_slot hprovider), bind_of_some (textOr_of_slot href),
    bind_of_some (textOr_of_slot hregion),
    bind_of_some (field_of_slot hstate (State.ofJson?_toJson _)),
    bind_of_some (text_of_slot himage),
    bind_of_some (field_of_slot hresources (Resources.ofJson?_toJson _)),
    bind_of_some (fieldOr_of_slot henv (Texts.ofJson?_toJson _)),
    bind_of_some (fieldOr_of_slot hports (asList_ofItems fun p _ => p.ofJson?_toJson)),
    bind_of_some (fieldOr_of_slot hendpoints (asList_ofItems fun e _ => e.ofJson?_toJson)),
    bind_of_some (fieldOr_of_slot hlabels (Texts.ofJson?_toJson _)),
    bind_of_some (text?_of_slot hrelease),
    bind_of_some (field?_of_slot hsuspendedAt (fun _ => str_ne_null _) fun t ht =>
      Instant.ofJson?_toJson (hsuspended t ht)),
    bind_of_some (field_of_slot hcreatedAt (Instant.ofJson?_toJson hcreated)),
    bind_of_some (field_of_slot hupdatedAt (Instant.ofJson?_toJson hupdated)),
    bind_of_some (word64_of_slot hversion)]
  rfl

@[simp] theorem legible (i : Instance) (d : Nat) : Legible (d + 3) i.toJson := by
  rw [toJson_eq]
  exact legible_members (by simp [form])

theorem lawful : form.Lawful where
  names i := names_of_eq_members (toJson_eq i)
  reads _ _ h := ofJson?_toJson h
  held _ _ _ := trivial
  legible i _ _ := i.legible _

end Instance

namespace Caller

def form : Form Caller where
  columns :=
    [.always "subject_id" fun c => .str c.subject,
     .always "tenant_id" fun c => .str c.tenant,
     .optional "email" .str Caller.email,
     .optional "name" .str Caller.name,
     .always "roles" fun c => ofItems .str c.roles,
     .always "metadata" fun c => c.metadata.toJson]

theorem toJson_eq (c : Caller) : c.toJson = .obj (members form.columns c) := by
  simp [toJson, form]

theorem ofJson?_toJson (c : Caller) : Caller.ofJson? c.toJson = some c := by
  rw [toJson_eq]
  refine record_members (by decide) fun row h => ?_
  simp only [form, List.forall_mem_cons, Column.name_always, Column.slot_always,
    Column.name_optional] at h
  obtain ⟨hsubject, htenant, hemail, hname, hroles, hmetadata, -⟩ := h
  rw [bind_of_some (text_of_slot hsubject), bind_of_some (text_of_slot htenant),
    bind_of_some (text?_of_slot hemail), bind_of_some (text?_of_slot hname),
    bind_of_some (fieldOr_of_slot hroles (asList_ofItems fun _ _ => rfl)),
    bind_of_some (fieldOr_of_slot hmetadata (Texts.ofJson?_toJson _))]
  rfl

theorem legible (c : Caller) (d : Nat) : Legible (d + 2) c.toJson := by
  rw [toJson_eq]
  exact legible_members (by simp [form])

theorem lawful : form.Lawful :=
  .of_columns toJson_eq ofJson?_toJson fun c => c.legible _

end Caller

namespace CreateRequest

def form : Form CreateRequest where
  columns :=
    [.always "name" fun r => .str r.name,
     .optional "provider_name" .str CreateRequest.provider,
     .always "region" fun r => .str r.region,
     .always "image" fun r => .str r.image,
     .always "resources" fun r => r.resources.toJson,
     .always "env" fun r => r.env.toJson,
     .always "ports" fun r => ofItems Port.toJson r.ports,
     .always "labels" fun r => r.labels.toJson]

theorem toJson_eq (r : CreateRequest) : r.toJson = .obj (members form.columns r) := by
  simp [toJson, form]

theorem ofJson?_toJson (r : CreateRequest) : CreateRequest.ofJson? r.toJson = some r := by
  rw [toJson_eq]
  refine record_members (by decide) fun row h => ?_
  simp only [form, List.forall_mem_cons, Column.name_always, Column.slot_always,
    Column.name_optional] at h
  obtain ⟨hname, hprovider, hregion, himage, hresources, henv, hports, hlabels, -⟩ := h
  rw [bind_of_some (text_of_slot hname), bind_of_some (text?_of_slot hprovider),
    bind_of_some (textOr_of_slot hregion), bind_of_some (text_of_slot himage),
    bind_of_some (fieldOr_of_slot hresources (Resources.ofJson?_toJson _)),
    bind_of_some (fieldOr_of_slot henv (Texts.ofJson?_toJson _)),
    bind_of_some (fieldOr_of_slot hports (asList_ofItems fun p _ => p.ofJson?_toJson)),
    bind_of_some (fieldOr_of_slot hlabels (Texts.ofJson?_toJson _))]
  rfl

theorem legible (r : CreateRequest) (d : Nat) : Legible (d + 3) r.toJson := by
  rw [toJson_eq]
  exact legible_members (by simp [form])

theorem lawful : form.Lawful :=
  .of_columns toJson_eq ofJson?_toJson fun r => r.legible _

end CreateRequest

namespace UpdateRequest

def form : Form UpdateRequest where
  columns :=
    [.optional "name" .str UpdateRequest.name,
     .optional "env" Texts.toJson UpdateRequest.env,
     .optional "labels" Texts.toJson UpdateRequest.labels]

theorem toJson_eq (r : UpdateRequest) : r.toJson = .obj (members form.columns r) := by
  simp [toJson, form]

theorem ofJson?_toJson (r : UpdateRequest) : UpdateRequest.ofJson? r.toJson = some r := by
  rw [toJson_eq]
  refine record_members (by decide) fun row h => ?_
  simp only [form, List.forall_mem_cons, Column.name_optional] at h
  obtain ⟨hname, henv, hlabels, -⟩ := h
  rw [bind_of_some (text?_of_slot hname),
    bind_of_some (field?_of_slot henv Texts.toJson_ne_null fun d _ => d.ofJson?_toJson),
    bind_of_some (field?_of_slot hlabels Texts.toJson_ne_null fun d _ => d.ofJson?_toJson)]
  rfl

theorem legible (r : UpdateRequest) (d : Nat) : Legible (d + 2) r.toJson := by
  rw [toJson_eq]
  exact legible_members (by simp [form])

theorem lawful : form.Lawful :=
  .of_columns toJson_eq ofJson?_toJson fun r => r.legible _

end UpdateRequest

namespace ScaleRequest

def form : Form ScaleRequest where
  columns :=
    [.optional "cpu_millis" wordToJson ScaleRequest.cpuMillis,
     .optional "memory_mb" wordToJson ScaleRequest.memoryMb,
     .optional "replicas" wordToJson ScaleRequest.replicas]

theorem toJson_eq (r : ScaleRequest) : r.toJson = .obj (members form.columns r) := by
  simp [toJson, form]

theorem word32?_of_slot {name : String} {row : Row} {get : ScaleRequest → Option UInt32}
    {r : ScaleRequest} (h : slot name row = some ((Column.optional name wordToJson get).slot r, row)) :
    field? name asWord32 row = some (get r, row) :=
  field?_of_slot h (fun _ => ofNat_ne_null _) fun w _ => asWord32_ofNat w

theorem ofJson?_toJson (r : ScaleRequest) : ScaleRequest.ofJson? r.toJson = some r := by
  rw [toJson_eq]
  refine record_members (by decide) fun row h => ?_
  simp only [form, List.forall_mem_cons, Column.name_optional] at h
  obtain ⟨hcpu, hmemory, hreplicas, -⟩ := h
  rw [bind_of_some (word32?_of_slot hcpu), bind_of_some (word32?_of_slot hmemory),
    bind_of_some (word32?_of_slot hreplicas)]
  rfl

theorem legible (r : ScaleRequest) (d : Nat) : Legible (d + 1) r.toJson := by
  rw [toJson_eq]
  exact legible_members (by simp [form, wordToJson])

theorem lawful : form.Lawful :=
  .of_columns toJson_eq ofJson?_toJson fun r => r.legible _

end ScaleRequest

namespace Query

def form : Form Query where
  columns :=
    [.optional "state" State.toJson Query.state,
     .optional "label" .str Query.label,
     .optional "provider" .str Query.provider,
     .optional "cursor" .str Query.cursor,
     .always "limit" fun q => ofNat q.limit.toNat]

theorem toJson_eq (q : Query) : q.toJson = .obj (members form.columns q) := by
  simp [toJson, form]

theorem ofJson?_toJson (q : Query) : Query.ofJson? q.toJson = some q := by
  rw [toJson_eq]
  refine record_members (by decide) fun row h => ?_
  simp only [form, List.forall_mem_cons, Column.name_always, Column.slot_always,
    Column.name_optional] at h
  obtain ⟨hstate, hlabel, hprovider, hcursor, hlimit, -⟩ := h
  rw [bind_of_some (field?_of_slot hstate (fun _ => str_ne_null _) fun s _ => s.ofJson?_toJson),
    bind_of_some (text?_of_slot hlabel), bind_of_some (text?_of_slot hprovider),
    bind_of_some (text?_of_slot hcursor),
    bind_of_some (fieldOr_of_slot hlimit (asWord64_ofNat _))]
  rfl

theorem legible (q : Query) (d : Nat) : Legible (d + 1) q.toJson := by
  rw [toJson_eq]
  exact legible_members (by simp [form])

theorem lawful : form.Lawful :=
  .of_columns toJson_eq ofJson?_toJson fun q => q.legible _

end Query

namespace Page

/-- How a page is written. Its total is a number of records in memory, so it fits a word. -/
def form : Form Page where
  columns :=
    [.always "items" fun p => ofItems Instance.toJson p.items,
     .optional "next_cursor" .str Page.nextCursor,
     .always "total" fun p => ofNat p.total]
  Civil p := ∀ i ∈ p.items, Instance.form.Civil i
  IsHeld p := p.total < UInt64.size

theorem toJson_eq (p : Page) : p.toJson = .obj (members form.columns p) := by
  simp [toJson, form]

theorem ofJson?_toJson {p : Page} (htotal : form.IsHeld p) (hitems : form.Civil p) :
    Page.ofJson? p.toJson = some p := by
  rw [toJson_eq]
  refine record_members (by decide) fun row h => ?_
  simp only [form, List.forall_mem_cons, Column.name_always, Column.slot_always,
    Column.name_optional] at h
  obtain ⟨hitemsAt, hcursor, htotalAt, -⟩ := h
  rw [bind_of_some (field_of_slot hitemsAt
      (asList_ofItems fun i hi => Instance.ofJson?_toJson (hitems i hi))),
    bind_of_some (text?_of_slot hcursor),
    bind_of_some (field_of_slot htotalAt (asNat_ofNat htotal))]
  rfl

theorem isHeld_of_ofJson? {j : Json} {p : Page} (h : Page.ofJson? j = some p) : form.IsHeld p := by
  obtain ⟨row, rest, h⟩ := exists_of_record h
  obtain ⟨items, row, -, h⟩ := exists_of_bind h
  obtain ⟨nextCursor, row, -, h⟩ := exists_of_bind h
  obtain ⟨total, row, htotal, h⟩ := exists_of_bind h
  cases h
  obtain ⟨j, hread⟩ := exists_of_field htotal
  exact lt_of_asNat hread

theorem legible {p : Page} (h : form.IsHeld p) (d : Nat) : Legible (d + 5) p.toJson := by
  rw [toJson_eq]
  have htotal : Legible (d + 4) (ofNat p.total) := legible_ofNat h _
  exact legible_members (by simp [form, htotal])

theorem lawful : form.Lawful where
  names p := names_of_eq_members (toJson_eq p)
  reads _ := ofJson?_toJson
  held _ _ := isHeld_of_ofJson?
  legible _ h _ := legible h _

end Page

/-! ## Events, reports and audit records -/

namespace Kind

def form : Form Kind := {}

theorem lawful : form.Lawful where
  names _ := rfl
  reads k _ _ := ofJson?_toJson k
  held _ _ _ := trivial
  legible k _ _ := k.legible _

end Kind

namespace Event

def form : Form Event where
  columns :=
    [.always "event_id" fun e => .str e.id,
     .always "event_type" fun e => e.kind.toJson,
     .always "tenant_id" fun e => .str e.tenant,
     .optional "instance_id" .str Event.instanceId,
     .optional "actor_id" .str Event.actor,
     Payload.column "payload" Event.payload,
     .always "timestamp" fun e => e.timestamp.toJson]
  Civil e := e.timestamp.Civil
  IsHeld e := e.payload.IsHeld
  IsPlain e := Legible (depthLimit - 1) e.payload.toJson

theorem toJson_eq (e : Event) : e.toJson = .obj (members form.columns e) := by
  simp [toJson, form]

theorem ofJson?_toJson {e : Event} (hpayload : form.IsHeld e) (htime : form.Civil e) :
    Event.ofJson? e.toJson = some e := by
  rw [toJson_eq]
  refine record_members (by decide) fun row h => ?_
  simp only [form, List.forall_mem_cons, Column.name_always, Column.slot_always,
    Column.name_optional, Payload.name_column] at h
  obtain ⟨hid, hkind, htenant, hinstance, hactor, hpayloadAt, htimestamp, -⟩ := h
  rw [bind_of_some (text_of_slot hid), bind_of_some (field_of_slot hkind (Kind.ofJson?_toJson _)),
    bind_of_some (text_of_slot htenant), bind_of_some (text?_of_slot hinstance),
    bind_of_some (text?_of_slot hactor), bind_of_some (Payload.of_slot hpayloadAt hpayload),
    bind_of_some (field_of_slot htimestamp (Instant.ofJson?_toJson htime))]
  rfl

theorem isHeld_of_ofJson? {j : Json} {e : Event} (h : Event.ofJson? j = some e) : form.IsHeld e := by
  obtain ⟨row, rest, h⟩ := exists_of_record h
  obtain ⟨id, row, -, h⟩ := exists_of_bind h
  obtain ⟨kind, row, -, h⟩ := exists_of_bind h
  obtain ⟨tenant, row, -, h⟩ := exists_of_bind h
  obtain ⟨instanceId, row, -, h⟩ := exists_of_bind h
  obtain ⟨actor, row, -, h⟩ := exists_of_bind h
  obtain ⟨payload, row, hpayload, h⟩ := exists_of_bind h
  obtain ⟨timestamp, row, -, h⟩ := exists_of_bind h
  cases h
  exact Payload.isHeld_of_fieldOr hpayload

theorem legible {e : Event} (h : form.IsPlain e) : Legible depthLimit e.toJson := by
  have hpayload : Legible (depthLimit - 1) ((Payload.column "payload" Event.payload).write e) := h
  rw [toJson_eq]
  exact legible_members (d := depthLimit - 1) (by simp [form, hpayload])

theorem lawful : form.Lawful where
  names e := names_of_eq_members (toJson_eq e)
  reads _ := ofJson?_toJson
  held _ _ := isHeld_of_ofJson?
  legible _ _ h := legible h

end Event

namespace ErrorReport

/-- How an error report is written; details that are missing are written as null. -/
def form : Form ErrorReport where
  columns :=
    [.always "error_code" fun r => .str r.code,
     .always "message" fun r => .str r.message,
     .always "details" fun r => orNull Texts.toJson r.details,
     .always "timestamp" fun r => r.timestamp.toJson]
  Civil r := r.timestamp.Civil

theorem toJson_eq (r : ErrorReport) : r.toJson = .obj (members form.columns r) := by
  simp [toJson, form]

theorem ofJson?_toJson {r : ErrorReport} (htime : form.Civil r) :
    ErrorReport.ofJson? r.toJson = some r := by
  rw [toJson_eq]
  refine record_members (by decide) fun row h => ?_
  simp only [form, List.forall_mem_cons, Column.name_always, Column.slot_always] at h
  obtain ⟨hcode, hmessage, hdetails, htimestamp, -⟩ := h
  rw [bind_of_some (text_of_slot hcode), bind_of_some (text_of_slot hmessage),
    bind_of_some (nullableField_of_slot hdetails Texts.toJson_ne_null fun d _ => d.ofJson?_toJson),
    bind_of_some (field_of_slot htimestamp (Instant.ofJson?_toJson htime))]
  rfl

theorem legible (r : ErrorReport) (d : Nat) : Legible (d + 2) r.toJson := by
  rw [toJson_eq]
  exact legible_members (by simp [form])

theorem lawful : form.Lawful where
  names r := names_of_eq_members (toJson_eq r)
  reads _ _ h := ofJson?_toJson h
  held _ _ _ := trivial
  legible r _ _ := r.legible _

end ErrorReport

namespace Audit.Record

def form : Form Record where
  columns :=
    [.always "action" fun r => .str r.action,
     .always "resource" fun r => .str r.resource,
     .always "category" fun r => .str r.category,
     .always "resource_id" fun r => .str r.resourceId,
     Payload.column "metadata" Record.metadata,
     .always "outcome" fun r => .str r.outcome,
     .always "severity" fun r => .str r.severity,
     .optional "reason" .str Record.reason]
  IsHeld r := r.metadata.IsHeld
  IsPlain r := Legible (depthLimit - 1) r.metadata.toJson

theorem toJson_eq (r : Record) : r.toJson = .obj (members form.columns r) := by
  simp [toJson, form]

theorem ofJson?_toJson {r : Record} (hmetadata : form.IsHeld r) :
    Record.ofJson? r.toJson = some r := by
  rw [toJson_eq]
  refine record_members (by decide) fun row h => ?_
  simp only [form, List.forall_mem_cons, Column.name_always, Column.slot_always,
    Column.name_optional, Payload.name_column] at h
  obtain ⟨haction, hresource, hcategory, hid, hmetadataAt, houtcome, hseverity, hreason, -⟩ := h
  rw [bind_of_some (text_of_slot haction), bind_of_some (text_of_slot hresource),
    bind_of_some (text_of_slot hcategory), bind_of_some (text_of_slot hid),
    bind_of_some (Payload.of_slot hmetadataAt hmetadata), bind_of_some (text_of_slot houtcome),
    bind_of_some (text_of_slot hseverity), bind_of_some (text?_of_slot hreason)]
  rfl

theorem isHeld_of_ofJson? {j : Json} {r : Record} (h : Record.ofJson? j = some r) :
    form.IsHeld r := by
  obtain ⟨row, rest, h⟩ := exists_of_record h
  obtain ⟨action, row, -, h⟩ := exists_of_bind h
  obtain ⟨resource, row, -, h⟩ := exists_of_bind h
  obtain ⟨category, row, -, h⟩ := exists_of_bind h
  obtain ⟨resourceId, row, -, h⟩ := exists_of_bind h
  obtain ⟨metadata, row, hmetadata, h⟩ := exists_of_bind h
  obtain ⟨outcome, row, -, h⟩ := exists_of_bind h
  obtain ⟨severity, row, -, h⟩ := exists_of_bind h
  obtain ⟨reason, row, -, h⟩ := exists_of_bind h
  cases h
  exact Payload.isHeld_of_fieldOr hmetadata

theorem legible {r : Record} (h : form.IsPlain r) : Legible depthLimit r.toJson := by
  have hpayload : Legible (depthLimit - 1) ((Payload.column "metadata" Record.metadata).write r) := h
  rw [toJson_eq]
  exact legible_members (d := depthLimit - 1) (by simp [form, hpayload])

theorem lawful : form.Lawful where
  names r := names_of_eq_members (toJson_eq r)
  reads _ h _ := ofJson?_toJson h
  held _ _ := isHeld_of_ofJson?
  legible _ _ h := legible h

end Audit.Record

/-! ## Providers and settings -/

namespace Provider

namespace Info

def form : Form Info where
  columns :=
    [.always "name" fun i => .str i.name,
     .always "version" fun i => .str i.version,
     .always "region" fun i => .str i.region]

theorem toJson_eq (i : Info) : i.toJson = .obj (members form.columns i) := by
  simp [toJson, form]

theorem ofJson?_toJson (i : Info) : Info.ofJson? i.toJson = some i := by
  rw [toJson_eq]
  refine record_members (by decide) fun row h => ?_
  simp only [form, List.forall_mem_cons, Column.name_always, Column.slot_always] at h
  obtain ⟨hname, hversion, hregion, -⟩ := h
  rw [bind_of_some (text_of_slot hname), bind_of_some (text_of_slot hversion),
    bind_of_some (textOr_of_slot hregion)]
  rfl

theorem legible (i : Info) (d : Nat) : Legible (d + 1) i.toJson := by
  rw [toJson_eq]
  exact legible_members (by simp [form])

theorem lawful : form.Lawful :=
  .of_columns toJson_eq ofJson?_toJson fun i => i.legible _

end Info

namespace Order

def form : Form Order where
  columns :=
    [.always "instance_id" fun o => .str o.instanceId,
     .always "tenant_id" fun o => .str o.tenant,
     .always "name" fun o => .str o.name,
     .always "image" fun o => .str o.image,
     .always "resources" fun o => o.resources.toJson,
     .always "env" fun o => o.env.toJson,
     .always "ports" fun o => ofItems Port.toJson o.ports,
     .always "labels" fun o => o.labels.toJson]

theorem toJson_eq (o : Order) : o.toJson = .obj (members form.columns o) := by
  simp [toJson, form]

theorem ofJson?_toJson (o : Order) : Order.ofJson? o.toJson = some o := by
  rw [toJson_eq]
  refine record_members (by decide) fun row h => ?_
  simp only [form, List.forall_mem_cons, Column.name_always, Column.slot_always] at h
  obtain ⟨hid, htenant, hname, himage, hresources, henv, hports, hlabels, -⟩ := h
  rw [bind_of_some (text_of_slot hid), bind_of_some (text_of_slot htenant),
    bind_of_some (text_of_slot hname), bind_of_some (text_of_slot himage),
    bind_of_some (field_of_slot hresources (Resources.ofJson?_toJson _)),
    bind_of_some (fieldOr_of_slot henv (Texts.ofJson?_toJson _)),
    bind_of_some (fieldOr_of_slot hports (asList_ofItems fun p _ => p.ofJson?_toJson)),
    bind_of_some (fieldOr_of_slot hlabels (Texts.ofJson?_toJson _))]
  rfl

theorem legible (o : Order) (d : Nat) : Legible (d + 3) o.toJson := by
  rw [toJson_eq]
  exact legible_members (by simp [form])

theorem lawful : form.Lawful :=
  .of_columns toJson_eq ofJson?_toJson fun o => o.legible _

end Order

namespace Provisioned

def form : Form Provisioned where
  columns :=
    [.always "provider_ref" fun p => .str p.ref,
     .always "endpoints" fun p => ofItems Endpoint.toJson p.endpoints,
     .always "metadata" fun p => p.metadata.toJson]

theorem toJson_eq (p : Provisioned) : p.toJson = .obj (members form.columns p) := by
  simp [toJson, form]

theorem ofJson?_toJson (p : Provisioned) : Provisioned.ofJson? p.toJson = some p := by
  rw [toJson_eq]
  refine record_members (by decide) fun row h => ?_
  simp only [form, List.forall_mem_cons, Column.name_always, Column.slot_always] at h
  obtain ⟨href, hendpoints, hmetadata, -⟩ := h
  rw [bind_of_some (text_of_slot href),
    bind_of_some (field_of_slot hendpoints (asList_ofItems fun e _ => e.ofJson?_toJson)),
    bind_of_some (fieldOr_of_slot hmetadata (Texts.ofJson?_toJson _))]
  rfl

theorem legible (p : Provisioned) (d : Nat) : Legible (d + 3) p.toJson := by
  rw [toJson_eq]
  exact legible_members (by simp [form])

theorem lawful : form.Lawful :=
  .of_columns toJson_eq ofJson?_toJson fun p => p.legible _

end Provisioned

namespace Status

def form : Form Status where
  columns :=
    [.always "state" fun s => s.state.toJson,
     .always "ready" fun s => .bool s.ready,
     .always "restarts" fun s => ofNat s.restarts.toNat,
     .optional "message" .str Status.message,
     .always "endpoints" fun s => ofItems Endpoint.toJson s.endpoints]

theorem toJson_eq (s : Status) : s.toJson = .obj (members form.columns s) := by
  simp [toJson, form]

theorem ofJson?_toJson (s : Status) : Status.ofJson? s.toJson = some s := by
  rw [toJson_eq]
  refine record_members (by decide) fun row h => ?_
  simp only [form, List.forall_mem_cons, Column.name_always, Column.slot_always,
    Column.name_optional] at h
  obtain ⟨hstate, hready, hrestarts, hmessage, hendpoints, -⟩ := h
  rw [bind_of_some (field_of_slot hstate (State.ofJson?_toJson _)),
    bind_of_some (bool_of_slot hready), bind_of_some (word32_of_slot hrestarts),
    bind_of_some (text?_of_slot hmessage),
    bind_of_some (fieldOr_of_slot hendpoints (asList_ofItems fun e _ => e.ofJson?_toJson))]
  rfl

theorem legible (s : Status) (d : Nat) : Legible (d + 3) s.toJson := by
  rw [toJson_eq]
  exact legible_members (by simp [form])

theorem lawful : form.Lawful :=
  .of_columns toJson_eq ofJson?_toJson fun s => s.legible _

end Status

end Provider

namespace Settings

def form : Form Settings where
  columns :=
    [.always "node_id" fun s => .str s.nodeId,
     .always "default_provider" fun s => .str s.defaultProvider,
     .always "max_instances_per_tenant" fun s => ofNat s.maxInstances.toNat,
     .always "hook_timeout_ms" fun s => ofNat s.hookTimeoutMs.toNat,
     .always "audit_enabled" fun s => .bool s.auditEnabled,
     .always "metrics_enabled" fun s => .bool s.metricsEnabled]

theorem toJson_eq (s : Settings) : s.toJson = .obj (members form.columns s) := by
  simp [toJson, form]

theorem ofJson?_toJson (s : Settings) : Settings.ofJson? s.toJson = some s := by
  rw [toJson_eq]
  refine record_members (by decide) fun row h => ?_
  simp only [form, List.forall_mem_cons, Column.name_always, Column.slot_always] at h
  obtain ⟨hnode, hprovider, hmax, htimeout, haudit, hmetrics, -⟩ := h
  rw [bind_of_some (text_of_slot hnode), bind_of_some (text_of_slot hprovider),
    bind_of_some (word64_of_slot hmax), bind_of_some (word64_of_slot htimeout),
    bind_of_some (bool_of_slot haudit), bind_of_some (bool_of_slot hmetrics)]
  rfl

theorem legible (s : Settings) (d : Nat) : Legible (d + 1) s.toJson := by
  rw [toJson_eq]
  exact legible_members (by simp [form])

theorem lawful : form.Lawful :=
  .of_columns toJson_eq ofJson?_toJson fun s => s.legible _

end Settings

/-! ## All types of the wire -/

/-- The types of the wire. -/
inductive WireType where
  | event
  | record
  | resources
  | port
  | endpoint
  | caller
  | errorReport
  | createRequest
  | updateRequest
  | scaleRequest
  | query
  | page
  | auditRecord
  | providerInfo
  | order
  | provisioned
  | status
  | settings
  | state
  | kind
  deriving DecidableEq, Repr

namespace WireType

def Value : WireType → Type
  | .event => Event
  | .record => Instance
  | .resources => Resources
  | .port => Port
  | .endpoint => Endpoint
  | .caller => Caller
  | .errorReport => ErrorReport
  | .createRequest => CreateRequest
  | .updateRequest => UpdateRequest
  | .scaleRequest => ScaleRequest
  | .query => Query
  | .page => Page
  | .auditRecord => Audit.Record
  | .providerInfo => Provider.Info
  | .order => Provider.Order
  | .provisioned => Provider.Provisioned
  | .status => Provider.Status
  | .settings => Settings
  | .state => State
  | .kind => Kind

instance wired : (t : WireType) → Wired t.Value
  | .event => inferInstanceAs (Wired Event)
  | .record => inferInstanceAs (Wired Instance)
  | .resources => inferInstanceAs (Wired Resources)
  | .port => inferInstanceAs (Wired Port)
  | .endpoint => inferInstanceAs (Wired Endpoint)
  | .caller => inferInstanceAs (Wired Caller)
  | .errorReport => inferInstanceAs (Wired ErrorReport)
  | .createRequest => inferInstanceAs (Wired CreateRequest)
  | .updateRequest => inferInstanceAs (Wired UpdateRequest)
  | .scaleRequest => inferInstanceAs (Wired ScaleRequest)
  | .query => inferInstanceAs (Wired Query)
  | .page => inferInstanceAs (Wired Page)
  | .auditRecord => inferInstanceAs (Wired Audit.Record)
  | .providerInfo => inferInstanceAs (Wired Provider.Info)
  | .order => inferInstanceAs (Wired Provider.Order)
  | .provisioned => inferInstanceAs (Wired Provider.Provisioned)
  | .status => inferInstanceAs (Wired Provider.Status)
  | .settings => inferInstanceAs (Wired Settings)
  | .state => inferInstanceAs (Wired State)
  | .kind => inferInstanceAs (Wired Kind)

def form : (t : WireType) → Form t.Value
  | .event => Event.form
  | .record => Instance.form
  | .resources => Resources.form
  | .port => Port.form
  | .endpoint => Endpoint.form
  | .caller => Caller.form
  | .errorReport => ErrorReport.form
  | .createRequest => CreateRequest.form
  | .updateRequest => UpdateRequest.form
  | .scaleRequest => ScaleRequest.form
  | .query => Query.form
  | .page => Page.form
  | .auditRecord => Audit.Record.form
  | .providerInfo => Provider.Info.form
  | .order => Provider.Order.form
  | .provisioned => Provider.Provisioned.form
  | .status => Provider.Status.form
  | .settings => Settings.form
  | .state => State.form
  | .kind => Kind.form

theorem lawful : (t : WireType) → t.form.Lawful
  | .event => Event.lawful
  | .record => Instance.lawful
  | .resources => Resources.lawful
  | .port => Port.lawful
  | .endpoint => Endpoint.lawful
  | .caller => Caller.lawful
  | .errorReport => ErrorReport.lawful
  | .createRequest => CreateRequest.lawful
  | .updateRequest => UpdateRequest.lawful
  | .scaleRequest => ScaleRequest.lawful
  | .query => Query.lawful
  | .page => Page.lawful
  | .auditRecord => Audit.Record.lawful
  | .providerInfo => Provider.Info.lawful
  | .order => Provider.Order.lawful
  | .provisioned => Provider.Provisioned.lawful
  | .status => Provider.Status.lawful
  | .settings => Settings.lawful
  | .state => State.lawful
  | .kind => Kind.lawful

end WireType

/-- Whether a value of the wire is read back from what it is written as and, when all of it is plain,
from the text of that. -/
def WireType.ReadsBack (t : WireType) (x : t.Value) : Prop :=
  Wired.ofJson? (Wired.toJson x) = some x ∧
    (t.form.IsPlain x → (read? (Wired.toJson x).write).bind Wired.ofJson? = some x)

theorem WireType.readsBack {t : WireType} {x : t.Value} (hcivil : t.form.Civil x)
    (hheld : t.form.IsHeld x) : t.ReadsBack x := by
  have hreads := t.lawful.reads x hheld hcivil
  refine ⟨hreads, fun hplain => ?_⟩
  rw [read?_write (t.lawful.legible x hheld hplain), Option.bind_some, hreads]

/-- A value of the wire with civil timestamps is read back from what it is written as, what is written
leaves out just the empty fields that are skipped, and a value that was read, from whatever it was, is
read once more from what it is written as. -/
theorem written_form_is_read_back (t : WireType) (x : t.Value) (hcivil : t.form.Civil x) :
    (t.form.IsHeld x → t.ReadsBack x) ∧
      names (Wired.toJson x) = (t.form.columns.filter fun c => !c.isSkipped x).map (·.name) ∧
      ∀ j, Wired.ofJson? j = some x → t.ReadsBack x := by
  refine ⟨fun hheld => WireType.readsBack hcivil hheld, t.lawful.names x, ?_⟩
  intro j hread
  exact WireType.readsBack hcivil (t.lawful.held j x hread)

/-- An event of a kind that is not known here, as another library writes it. -/
def billing : Json :=
  .obj [("event_type", .str "billing.invoiced"), ("event_id", .str "evt_1"),
    ("tenant_id", .str "acme"), ("timestamp", .str "2023-11-14T22:13:20.005Z"),
    ("payload", .obj [("invoice", .obj [("paid", .bool true), ("lines", .arr [.int 3])])])]

/-- What that event is read as. -/
def invoiced : Event :=
  { id := "evt_1", kind := .unknown, tenant := "acme"
    payload := Dict.empty.insert "invoice" (.obj [("lines", .arr [.int 3]), ("paid", .bool true)])
    timestamp := ⟨1700000000, 5000000⟩ }

theorem written_form_is_read_back_invoiced :
    Event.ofJson? billing = some invoiced ∧ Event.ofJson? invoiced.toJson = some invoiced ∧
      (read? invoiced.toJson.write).bind Event.ofJson? = some invoiced ∧
      names invoiced.toJson = ["event_id", "event_type", "tenant_id", "payload", "timestamp"] := by
  have hbilling : Event.ofJson? billing = some invoiced := by decide
  have hcivil : Event.form.Civil invoiced := ⟨by decide, by decide⟩
  have hplain : Event.form.IsPlain invoiced := by
    show Legible (depthLimit - 1) invoiced.payload.toJson
    decide
  obtain ⟨-, hnames, hagain⟩ := written_form_is_read_back .event invoiced hcivil
  obtain ⟨hread, htext⟩ := hagain billing hbilling
  exact ⟨hbilling, hread, htext hplain, hnames.trans (by decide)⟩

end Fleet
