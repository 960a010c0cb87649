import PlayDiagram.Proofs.Lookup
import PlayDiagram.Wire.Decode
import PlayDiagram.Wire.Encode

/-!
# What is written is read back

Reading inverts writing, record by record (`document_encode`).  It does so for every document whose
coordinates and sizes are finite, be it sound or not: only what is not finite has no text.
-/

namespace PlayDiagram

open Json (Value)

/-- Both coordinates are finite. -/
structure Point.IsFinite (p : Point Float) : Prop where
  x : p.x.isFinite = true
  y : p.y.isFinite = true

/-- All numbers of the object are finite. -/
structure CourtObject.IsFinite (o : CourtObject Float) : Prop where
  position : o.position.IsFinite
  size : o.size.isFinite = true
  width : ∀ w, o.width = some w → w.isFinite = true
  height : ∀ h, o.height = some h → h.isFinite = true

/-- Both ends of the action's path are finite. -/
structure Action.IsFinite (a : Action Float) : Prop where
  origin : a.origin.IsFinite
  target : a.target.IsFinite

/-- All numbers of the phase are finite. -/
structure Phase.IsFinite (p : Phase Float) : Prop where
  objects : ∀ o ∈ p.objects, o.IsFinite
  actions : ∀ a ∈ p.actions, a.IsFinite

/-- All numbers of the document are finite. -/
def Document.IsFinite (d : Document Float) : Prop :=
  ∀ p ∈ d.phases, p.IsFinite

namespace Decode

variable {β : Type}

section Members

theorem lookup_member? (key k : String) (value? : Option Value) :
    (Encode.member? key value?).lookup k = if k = key then value? else none := by
  cases value? with
  | none => simp [Encode.member?]
  | some v => exact lookup_cons_eq_ite k key v []

theorem member?_of_lookup {members : List (String × Value)} {key : String} {v : Value}
    {decode : Decoder β} {b : β} (hlookup : members.lookup key = some v)
    (hdecode : decode v = .ok b) : member? members key decode = .ok (some b) := by
  unfold member?
  simp only [hlookup, hdecode]
  rfl

/-- A field that is left out where it is not set, and read where it is. -/
theorem member?_of_optional {γ : Type} {members : List (String × Value)} {key : String}
    {x? : Option γ} {encode : γ → Value} {decode : Decoder β} {f : γ → β}
    (hlookup : members.lookup key = x?.map encode)
    (hdecode : ∀ x, x? = some x → decode (encode x) = .ok (f x)) :
    member? members key decode = .ok (x?.map f) := by
  unfold member?
  rw [hlookup]
  cases x? with
  | none => rfl
  | some x =>
      simp only [Option.map_some, hdecode x rfl]
      rfl

end Members

theorem float_encode {x : Float} (hx : x.isFinite = true) : float (Encode.float x) = .ok x := by
  unfold Encode.float Value.ofFloat Json.Number.ofFloat?
  rw [dif_pos hx]
  rfl

theorem nullable_float_encode {x : Float} (hx : x.isFinite = true) :
    nullable float (Encode.float x) = .ok (some x) := by
  unfold Encode.float Value.ofFloat Json.Number.ofFloat?
  rw [dif_pos hx]
  rfl

@[simp] theorem int64_encode (n : Int64) : int64 (.number (.ofInt64 n)) = .ok n := by
  have hlt : n.toInt < 2 ^ 63 := n.toInt_lt
  unfold Json.Number.ofInt64 int64
  simp only [if_pos hlt]
  exact congrArg Except.ok n.ofInt_toInt

@[simp] theorem uint32_encode (n : UInt32) : uint32 (.number (.ofUInt32 n)) = .ok n := by
  have hrange : 0 ≤ (n.toNat : Int) ∧ (n.toNat : Int) < 2 ^ 32 := by
    have hlt := n.toNat_lt
    omega
  unfold Json.Number.ofUInt32 uint32
  simp only [if_pos hrange, Int.toNat_natCast]
  exact congrArg Except.ok n.ofNat_toNat

@[simp] theorem nullable_uint32_encode (n : UInt32) :
    nullable uint32 (.number (.ofUInt32 n)) = .ok (some n) := by
  have hread : nullable uint32 (.number (.ofUInt32 n)) = (uint32 (.number (.ofUInt32 n))).map some :=
    rfl
  rw [hread, uint32_encode]
  rfl

@[simp] theorem text_encode (s : String) : text (Encode.text s) = .ok s :=
  rfl

@[simp] theorem nullable_text_encode (s : String) : nullable text (Encode.text s) = .ok (some s) :=
  rfl

@[simp] theorem objectId_encode (id : ObjectId) : objectId (Encode.objectId id) = .ok id :=
  rfl

@[simp] theorem nullable_objectId_encode (id : ObjectId) :
    nullable objectId (Encode.objectId id) = .ok (some id) :=
  rfl

@[simp] theorem objectKind_encode (k : ObjectKind) : objectKind (Encode.text k.name) = .ok k := by
  cases k <;> rfl

@[simp] theorem actionKind_encode (k : ActionKind) : actionKind (Encode.text k.name) = .ok k := by
  cases k <;> rfl

@[simp] theorem trigger_encode (t : Trigger) : trigger (Encode.text t.name) = .ok t := by
  cases t <;> rfl

@[simp] theorem court_encode (c : Court) : court (Encode.text c.name) = .ok c := by
  cases c <;> rfl

theorem each_encode {encode : β → Value} {decode : Decoder β} {l : List β}
    (hdecode : ∀ b ∈ l, decode (encode b) = .ok b) : each decode (l.map encode) = .ok l := by
  induction l with
  | nil => rfl
  | cons b rest ih =>
      have hrest := ih fun b' hb' => hdecode b' (List.mem_cons_of_mem b hb')
      rw [List.map_cons, each, hdecode b List.mem_cons_self, hrest]
      rfl

theorem point_encode {p : Point Float} (hp : p.IsFinite) : point (Encode.point p) = .ok p := by
  show pointOfMembers [("x", Encode.float p.x), ("y", Encode.float p.y)] = .ok p
  unfold pointOfMembers
  rw [member?_of_lookup (by rfl) (float_encode hp.x), member?_of_lookup (by rfl) (float_encode hp.y)]
  rfl

@[simp] theorem ok_bind {ε γ : Type} (b : β) (f : β → Except ε γ) : (Except.ok b >>= f) = f b :=
  rfl

/-- A value that is set is read as set, and one that is not stays unset. -/
@[simp] theorem join_map_some (x? : Option β) : (x?.map some).join = x? := by
  cases x? <;> rfl

/-- What a written object holds. -/
theorem object_members (o : CourtObject Float) :
    ∃ members, Encode.object o = .object members ∧
      members.lookup "id" = some (Encode.objectId o.id) ∧
      members.lookup "type" = some (Encode.text o.kind.name) ∧
      members.lookup "label" = o.label.map Encode.text ∧
      members.lookup "position" = some (Encode.point o.position) ∧
      members.lookup "size" = some (Encode.float o.size) ∧
      members.lookup "width" = o.width.map Encode.float ∧
      members.lookup "height" = o.height.map Encode.float := by
  refine ⟨_, rfl, ?_⟩
  simp [List.lookup_append, lookup_member?, lookup_cons_eq_ite]

theorem object_encode {o : CourtObject Float} (ho : o.IsFinite) :
    object (Encode.object o) = .ok o := by
  obtain ⟨members, hmembers, hid, htype, hlabel, hposition, hsize, hwidth, hheight⟩ :=
    object_members o
  have hread : object (Encode.object o) = objectOfMembers members := by
    rw [hmembers]
    rfl
  rw [hread, objectOfMembers,
    member?_of_optional hheight fun h hh => nullable_float_encode (ho.height h hh), ok_bind,
    member?_of_lookup hid (objectId_encode o.id), ok_bind,
    member?_of_optional hlabel fun s _ => nullable_text_encode s, ok_bind,
    member?_of_lookup hposition (point_encode ho.position), ok_bind,
    member?_of_lookup hsize (float_encode ho.size), ok_bind,
    member?_of_lookup htype (objectKind_encode o.kind), ok_bind,
    member?_of_optional hwidth fun w hw => nullable_float_encode (ho.width w hw), ok_bind]
  simp only [required, ok_bind, join_map_some]
  rfl

theorem timing_members (t : Timing) :
    ∃ members, Encode.timing t = .object members ∧
      members.lookup "trigger" = some (Encode.text t.trigger.name) ∧
      members.lookup "durationMs" = t.durationMs.map fun ms => .number (.ofUInt32 ms) := by
  refine ⟨_, rfl, ?_⟩
  simp [lookup_member?, lookup_cons_eq_ite]

@[simp] theorem timing_encode (t : Timing) : timing (Encode.timing t) = .ok t := by
  obtain ⟨members, hmembers, htrigger, hduration⟩ := timing_members t
  have hread : timing (Encode.timing t) = timingOfMembers members := by
    rw [hmembers]
    rfl
  rw [hread, timingOfMembers,
    member?_of_optional hduration fun ms _ => nullable_uint32_encode ms, ok_bind,
    member?_of_lookup htrigger (trigger_encode t.trigger), ok_bind, join_map_some]
  rfl

theorem action_members (a : Action Float) :
    ∃ members, Encode.action a = .object members ∧
      members.lookup "id" = some (Encode.text a.id.text) ∧
      members.lookup "type" = some (Encode.text a.kind.name) ∧
      members.lookup "from" = some (Encode.point a.origin) ∧
      members.lookup "to" = some (Encode.point a.target) ∧
      members.lookup "fromObjectId" = a.performer.map Encode.objectId ∧
      members.lookup "toObjectId" = a.receiver.map Encode.objectId ∧
      members.lookup "animation" = some (Encode.timing a.timing) := by
  refine ⟨_, rfl, ?_⟩
  simp [List.lookup_append, lookup_member?, lookup_cons_eq_ite]

theorem action_encode {a : Action Float} (ha : a.IsFinite) :
    action (Encode.action a) = .ok a := by
  obtain ⟨members, hmembers, hid, htype, horigin, htarget, hperformer, hreceiver, htiming⟩ :=
    action_members a
  have hread : action (Encode.action a) = actionOfMembers members := by
    rw [hmembers]
    rfl
  rw [hread, actionOfMembers,
    member?_of_lookup htiming (timing_encode a.timing), ok_bind,
    member?_of_lookup horigin (point_encode ha.origin), ok_bind,
    member?_of_optional hperformer fun id _ => nullable_objectId_encode id, ok_bind,
    member?_of_lookup hid (text_encode a.id.text), ok_bind,
    member?_of_lookup htarget (point_encode ha.target), ok_bind,
    member?_of_optional hreceiver fun id _ => nullable_objectId_encode id, ok_bind,
    member?_of_lookup htype (actionKind_encode a.kind), ok_bind]
  simp only [required, ok_bind, join_map_some]
  rfl

theorem phase_members (p : Phase Float) :
    ∃ members, Encode.phase p = .object members ∧
      members.lookup "id" = some (Encode.text p.id.text) ∧
      members.lookup "name" = some (Encode.text p.name) ∧
      members.lookup "objects" = some (.array (p.objects.map Encode.object)) ∧
      members.lookup "actions" = some (.array (p.actions.map Encode.action)) ∧
      members.lookup "ballOwnerObjectId" = Encode.ballOwner? p.ballOwner := by
  refine ⟨_, rfl, ?_⟩
  simp [lookup_member?, lookup_cons_eq_ite]

/-- The three states of a ball owner stay apart: an inherited owner is no member, nobody is `null`. -/
theorem ballOwner_encode {members : List (String × Value)} {key : String} (owner : BallOwner)
    (hlookup : members.lookup key = Encode.ballOwner? owner) :
    ∃ owner?, member? members key ballOwner = .ok owner? ∧ owner?.getD .inherit = owner := by
  unfold member?
  rw [hlookup]
  cases owner with
  | inherit => exact ⟨none, rfl, rfl⟩
  | nobody => exact ⟨some .nobody, rfl, rfl⟩
  | owner id => exact ⟨some (.owner id), rfl, rfl⟩

theorem phase_encode {p : Phase Float} (hp : p.IsFinite) : phase (Encode.phase p) = .ok p := by
  obtain ⟨members, hmembers, hid, hname, hobjects, hactions, howner⟩ := phase_members p
  obtain ⟨owner?, howner, hgetD⟩ := ballOwner_encode p.ballOwner howner
  have hobjectList : list object (.array (p.objects.map Encode.object)) = .ok p.objects :=
    each_encode fun o ho => object_encode (hp.objects o ho)
  have hactionList : list action (.array (p.actions.map Encode.action)) = .ok p.actions :=
    each_encode fun a ha => action_encode (hp.actions a ha)
  have hread : phase (Encode.phase p) = phaseOfMembers members := by
    rw [hmembers]
    rfl
  rw [hread, phaseOfMembers, member?_of_lookup hactions hactionList, ok_bind, howner, ok_bind,
    member?_of_lookup hid (text_encode p.id.text), ok_bind,
    member?_of_lookup hname (text_encode p.name), ok_bind,
    member?_of_lookup hobjects hobjectList, ok_bind]
  simp only [required, ok_bind, hgetD]
  rfl

/-- A document of finite numbers is read back as it was written. -/
theorem document_encode {d : Document Float} (hd : d.IsFinite) :
    document (Encode.document d) = .ok d := by
  have hphases : list phase (.array (d.phases.map Encode.phase)) = .ok d.phases :=
    each_encode fun p hp => phase_encode (hd p hp)
  obtain ⟨members, hmembers, hversion, hcourt, hphaseList⟩ :
      ∃ members, Encode.document d = .object members ∧
        members.lookup "schemaVersion" = some (.number (.ofInt64 d.schemaVersion)) ∧
        members.lookup "courtTemplate" = some (Encode.text d.court.name) ∧
        members.lookup "phases" = some (.array (d.phases.map Encode.phase)) := by
    refine ⟨_, rfl, ?_⟩
    simp [lookup_cons_eq_ite]
  have hread : document (Encode.document d) = documentOfMembers members := by
    rw [hmembers]
    rfl
  rw [hread, documentOfMembers, member?_of_lookup hcourt (court_encode d.court), ok_bind,
    member?_of_lookup hphaseList hphases, ok_bind,
    member?_of_lookup hversion (int64_encode d.schemaVersion), ok_bind]
  rfl

end Decode

end PlayDiagram
