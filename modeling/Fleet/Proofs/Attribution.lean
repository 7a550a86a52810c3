import Fleet.Proofs.Trail
import Mathlib.Data.List.Forall2

/-!
# Whose event a record tells of

An event says of itself which tenant it belongs to, who caused it and which instance it is about
(`Event.own`). A record says so where the payload leaves the name free, and repeats the payload elsewhere:

    (Record.of p e).metadata.get? key = (e.payload.get? key).or (e.own key)                 (get?_metadata)

So a record is attributed to its event (`Record.Attributes`) just if the payload does not belie the event
(`Event.Belied`, `attributes_of_iff`), and nothing keeps a payload from that. -/

namespace Fleet

/-- What an event says of itself under a name. -/
def Event.own (e : Event) (key : String) : Option Json :=
  if key = "tenant_id" then some (.str e.tenant)
  else if key = "actor_id" then e.actor.map .str
  else if key = "instance_id" then e.instanceId.map .str
  else none

/-- The names under which events speak of themselves. -/
def Event.ownKeys : List String := ["tenant_id", "actor_id", "instance_id"]

/-- Whether the payload has something else under a name under which the event speaks of itself. -/
def Event.Belied (e : Event) : Prop :=
  ∃ key ∈ Event.ownKeys, ∃ value, e.payload.get? key = some value ∧ e.own key ≠ some value

namespace Audit

/-- Whether a record names the tenant of an event, and its actor and its instance just if it has them. -/
structure Record.Attributes (r : Record) (e : Event) : Prop where
  tenant : r.metadata.get? "tenant_id" = some (.str e.tenant)
  actor : r.metadata.get? "actor_id" = e.actor.map .str
  subject : r.metadata.get? "instance_id" = e.instanceId.map .str

variable {e : Event}

theorem get?_attribution (key : String) : (attribution e).get? key = e.own key := by
  unfold attribution Event.own
  by_cases htenant : key = "tenant_id"
  · subst htenant
    cases e.actor <;> cases e.instanceId <;> simp
  · by_cases hactor : key = "actor_id"
    · subst hactor
      cases e.actor <;> cases e.instanceId <;> simp
    · by_cases hsubject : key = "instance_id"
      · subst hsubject
        cases e.actor <;> cases e.instanceId <;> simp
      · simp only [if_neg htenant, if_neg hactor, if_neg hsubject]
        cases e.actor <;> cases e.instanceId <;>
          simp [Ne.symm htenant, Ne.symm hactor, Ne.symm hsubject]

/-- The members of the payload come before what the event says of itself. -/
theorem get?_metadata (p : Profile) (e : Event) (key : String) :
    (Record.of p e).metadata.get? key = (e.payload.get? key).or (e.own key) := by
  rw [← get?_attribution]
  exact Dict.get?_foldl_insert e.payload.ascending (attribution e) key

theorem Record.attributes_iff {r : Record} :
    r.Attributes e ↔ ∀ key ∈ Event.ownKeys, r.metadata.get? key = e.own key := by
  simp only [Event.ownKeys, List.forall_mem_cons]
  constructor
  · rintro ⟨htenant, hactor, hsubject⟩
    exact ⟨htenant, hactor, hsubject, nofun⟩
  · rintro ⟨htenant, hactor, hsubject, -⟩
    exact ⟨htenant, hactor, hsubject⟩

/-- A record is attributed to its event just if the payload does not belie the event. -/
theorem attributes_of_iff (p : Profile) (e : Event) : (Record.of p e).Attributes e ↔ ¬ e.Belied := by
  rw [Record.attributes_iff]
  unfold Event.Belied
  constructor
  · rintro hall ⟨key, hkey, value, hvalue, hne⟩
    have hown := hall key hkey
    rw [get?_metadata, hvalue] at hown
    exact hne hown.symm
  · intro hnot key hkey
    rw [get?_metadata]
    cases hvalue : e.payload.get? key with
    | none => rfl
    | some value =>
      by_contra hne
      exact hnot ⟨key, hkey, value, hvalue, fun hown => hne hown.symm⟩

namespace Trail

variable {t : Trail}

/-- A trail on which all actions are recorded is due one record of each event of known kind. -/
theorem forall₂_due (hall : t.enabled = none) (events : List Event) :
    List.Forall₂ (fun e record => ∃ topic, record = Record.of (.ofTopic topic) e)
      (events.filter (·.kind ≠ .unknown)) (events.filterMap t.due) := by
  have henables : ∀ topic, t.Enables topic := by
    intro topic actions hsome
    rw [hall] at hsome
    cases hsome
  induction events with
  | nil => exact .nil
  | cons e events ih =>
    cases hkind : e.kind with
    | unknown =>
      have hnone : t.due e = none := by
        unfold due
        rw [hkind]
        rfl
      rw [List.filter_cons_of_neg (by simp [hkind]), List.filterMap_cons_none hnone]
      exact ih
    | known topic =>
      have hsome := (t.due_eq_some_iff e _).2 ⟨topic, hkind, henables topic, rfl⟩
      rw [List.filter_cons_of_pos (by simp [hkind]), List.filterMap_cons_some hsome]
      exact .cons ⟨topic, rfl⟩ ih

end Trail

end Audit

namespace Plugins

/-- A trail that is left alone, records all actions and refuses nothing has one record of each event of
known kind, in order. Each repeats the payload and has what the event says of itself where the payload is
silent, so that it is attributed to its event just if the payload does not belie the event. -/
theorem records_are_attributed_unless_belied {ps : Plugins} {place : Nat} {trail : Audit.Trail}
    {rounds : List Round} (htrail : ps.trailAt? place = some trail) (hfresh : trail.recorder.kept = [])
    (hall : trail.enabled = none) (hkeeps : ∀ record, trail.recorder.refuses record = false)
    (hspares : ∀ r ∈ rounds, r.Spares place) :
    ∃ after, (attend rounds ps).1.trailAt? place = some after ∧
      List.Forall₂
        (fun (e : Event) (record : Audit.Record) =>
          (∀ key, record.metadata.get? key = (e.payload.get? key).or (e.own key)) ∧
            (record.Attributes e ↔ ¬ e.Belied))
        ((rounds.map (·.event)).filter (·.kind ≠ .unknown)) after.recorder.kept := by
  refine ⟨_, trailAt?_attend hspares htrail, ?_⟩
  have hkept : (trail.keeping ((rounds.filterMap (trail.due ·.event)).filter
      (!trail.recorder.refuses ·))).recorder.kept = (rounds.map (·.event)).filterMap trail.due := by
    simp only [Audit.Trail.keeping, hfresh, hkeeps, List.nil_append, Bool.not_false, List.filter_true,
      List.filterMap_map]
    rfl
  rw [hkept]
  refine (Audit.Trail.forall₂_due hall _).imp ?_
  rintro e _ ⟨topic, rfl⟩
  exact ⟨Audit.get?_metadata _ e, Audit.attributes_of_iff _ e⟩

/-- An event of one tenant, whose payload names another. -/
def forged : Event :=
  { id := "evt_3", kind := .known .instanceCreated, tenant := "acme", instanceId := some "inst_1"
    payload := Dict.empty.insert "tenant_id" (.str "globex"), timestamp := ⟨0, 0⟩ }

/-- An event that nobody caused, whose payload names who did. -/
def impersonal : Event :=
  { id := "evt_4", kind := .known .tenantDeleted, tenant := "acme"
    payload := Dict.empty.insert "actor_id" (.str "root"), timestamp := ⟨0, 0⟩ }

/-- The records of two events name another tenant than theirs and an actor that there was not. -/
theorem attribution_can_be_forged :
    ∃ after, (attend [{ event := forged }, { event := impersonal }] (register {} (.audit {}))).1.trailAt? 0 =
        some after ∧
      ∃ r s, after.recorder.kept = [r, s] ∧ (¬ r.Attributes forged ∧ ¬ s.Attributes impersonal) ∧
        r.metadata.get? "tenant_id" = some (.str "globex") ∧
        s.metadata.get? "actor_id" = some (.str "root") := by
  refine ⟨_, rfl, _, _, rfl, ⟨?_, ?_⟩, rfl, rfl⟩
  · rintro ⟨htenant, -, -⟩
    revert htenant
    decide
  · rintro ⟨-, hactor, -⟩
    revert hactor
    decide

/-- An event whose payload repeats the tenant and says more besides. -/
def candid : Event :=
  { forged with
    actor := some "user-9"
    payload := (Dict.empty.insert "tenant_id" (.str "acme")).insert "provider" (.str "local") }

/-- A candid event, one of unknown kind and, once the trail's neighbour is gone, a forged one. -/
def dubious : List Round :=
  [{ event := candid }, { event := { forged with kind := .unknown } },
    { event := forged
      meanwhile := fun ps => { ps with members := ps.members.set 0 (.custom "aside" [] fun _ _ => {}) } }]

theorem dubious_spares : ∀ r ∈ dubious, r.Spares 1 := by
  intro r hr ps
  simp only [dubious, List.mem_cons, List.not_mem_nil, or_false] at hr
  obtain rfl | rfl | rfl := hr
  · rfl
  · rfl
  · show (ps.members.set 0 _)[1]?.bind Plugin.trail? = ps.members[1]?.bind Plugin.trail?
    rw [List.getElem?_set_ne (Nat.zero_ne_add_one 0)]

theorem candid_not_belied : ¬ candid.Belied := by
  rintro ⟨key, hkey, value, hvalue, hne⟩
  simp only [Event.ownKeys, List.mem_cons, List.not_mem_nil, or_false] at hkey
  obtain rfl | rfl | rfl := hkey
  · exact hne hvalue
  · cases hvalue
  · cases hvalue

theorem records_are_attributed_unless_belied_dubious :
    ([broken, .audit {}].foldl register ({} : Plugins)).trailAt? 1 = some {} ∧
      ∃ after, (attend dubious ([broken, .audit {}].foldl register {})).1.trailAt? 1 = some after ∧
        ∃ r s, after.recorder.kept = [r, s] ∧ r.Attributes candid ∧ ¬ s.Attributes forged := by
  have htrail : ([broken, .audit {}].foldl register ({} : Plugins)).trailAt? 1 = some {} := rfl
  obtain ⟨after, hafter, hrecords⟩ :=
    records_are_attributed_unless_belied htrail rfl rfl (fun _ => rfl) dubious_spares
  have hknown : (dubious.map (·.event)).filter (·.kind ≠ .unknown) = [candid, forged] := rfl
  have hbelied : forged.Belied := ⟨"tenant_id", .head _, .str "globex", rfl, by decide⟩
  rw [hknown] at hrecords
  obtain ⟨r, _, ⟨-, hr⟩, hrest, hkept⟩ := List.forall₂_cons_left_iff.1 hrecords
  obtain ⟨s, _, ⟨-, hs⟩, hnil, rfl⟩ := List.forall₂_cons_left_iff.1 hrest
  rw [List.forall₂_nil_left_iff.1 hnil] at hkept
  exact ⟨htrail, after, hafter, r, s, hkept, hr.2 candid_not_belied, fun h => hs.1 h hbelied⟩

end Plugins

end Fleet
