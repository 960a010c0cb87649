import Mathlib.Logic.Relation
import PlayDiagram.Proofs.Play.EditHistory
import PlayDiagram.Proofs.Wire.SaveLoad
import PlayDiagram.Proofs.Wire.Variations

/-!
# What makes no difference in a written document

Members that are no fields are ignored, and what is written for an absent field as its default is read as
if it was absent, in records at any depth (`Document.ofJson_eq_of_varies`).  An absent owner of the ball is
the exception: `null` says that nobody has the ball, and not that it is passed on.
-/

namespace PlayDiagram

open Json (Value)

/-! ## The records of a document -/

namespace Schema

/-- A point has both coordinates. -/
def point : Schema where
  fields := ["x", "y"]
  defaults := []
  nested := []

/-- An object needs no label, width or height, and no size: the usual one may be written as an integer or
not. -/
def object : Schema where
  fields := ["id", "type", "label", "position", "size", "width", "height"]
  defaults :=
    [("label", .null), ("width", .null), ("height", .null), ("size", .number (.ofUInt32 28)),
      ("size", .number (.real 28 rfl))]
  nested := [("position", point.Varies)]

/-- The timing of an action leaves open when it starts and how long it lasts. -/
def timing : Schema where
  fields := ["trigger", "durationMs"]
  defaults := [("trigger", .string "after_previous"), ("durationMs", .null)]
  nested := []

/-- An action needs no performer, no receiver and no timing. -/
def action : Schema where
  fields := ["id", "type", "from", "to", "fromObjectId", "toObjectId", "animation"]
  defaults := [("fromObjectId", .null), ("toObjectId", .null), ("animation", .object [])]
  nested := [("from", point.Varies), ("to", point.Varies), ("animation", timing.Varies)]

/-- A phase may be empty.  Nothing may be written for an owner of the ball that is absent. -/
def phase : Schema where
  fields := ["id", "name", "objects", "actions", "ballOwnerObjectId"]
  defaults := [("objects", .array []), ("actions", .array [])]
  nested := [("objects", ChangesSomeItem object.Varies), ("actions", ChangesSomeItem action.Varies)]

/-- A document has all of its fields. -/
def document : Schema where
  fields := ["schemaVersion", "courtTemplate", "phases"]
  defaults := []
  nested := [("phases", ChangesSomeItem phase.Varies)]

end Schema

namespace Decode

variable (v v' : Value)

theorem point_eq_of_varies (h : Schema.point.Varies v v') : point v = point v' := by
  have hx : Schema.point.Reads 0 "x" float id := .plain rfl (by decide) (by decide)
  have hy : Schema.point.Reads 1 "y" float id := .plain rfl (by decide) (by decide)
  refine record_eq_of_varies ?_ ?_ h
  · intro members members' halike
    unfold pointOfMembers
    rw [halike.plain_eq hx, halike.plain_eq hy]
  · intro items items' halike
    unfold pointOfItems
    simp only [halike.item_eq hx, halike.item_eq hy, halike.noMore_eq]

theorem object_eq_of_varies (h : Schema.object.Varies v v') : object v = object v' := by
  have hid : Schema.object.Reads 0 "id" objectId id := .plain rfl (by decide) (by decide)
  have hkind : Schema.object.Reads 1 "type" objectKind id := .plain rfl (by decide) (by decide)
  have hlabel : Schema.object.Reads 2 "label" (nullable text) Option.join :=
    .nullable rfl (by simp [Schema.object]) (by decide)
  have hposition : Schema.object.Reads 3 "position" point id :=
    ⟨rfl, by simp [Schema.object], by simpa [Schema.object] using point_eq_of_varies⟩
  have hsize : Schema.object.Reads 4 "size" float (·.getD CourtObject.recordedSize) := by
    refine ⟨rfl, fun v hv => ?_, by simp [Schema.object]⟩
    obtain rfl | rfl : v = .number (.ofUInt32 28) ∨ v = .number (.real 28 rfl) := by
      simpa [Schema.object] using hv
    · rfl
    · rfl
  have hwidth : Schema.object.Reads 5 "width" (nullable float) Option.join :=
    .nullable rfl (by simp [Schema.object]) (by decide)
  have hheight : Schema.object.Reads 6 "height" (nullable float) Option.join :=
    .nullable rfl (by simp [Schema.object]) (by decide)
  refine record_eq_of_varies ?_ ?_ h
  · intro members members' halike
    unfold objectOfMembers
    simp only [halike.plain_eq hid, halike.plain_eq hkind, halike.plain_eq hposition]
    refine bind_eq_of_map_eq (halike.member?_eq hheight) fun _ _ hheight => bind_congr fun id? => ?_
    refine bind_eq_of_map_eq (halike.member?_eq hlabel) fun _ _ hlabel => bind_congr fun position? => ?_
    refine bind_eq_of_map_eq (halike.member?_eq hsize) fun _ _ hsize => bind_congr fun kind? => ?_
    refine bind_eq_of_map_eq (halike.member?_eq hwidth) fun _ _ hwidth => ?_
    rw [hheight, hlabel, hsize, hwidth]
  · intro items items' halike
    unfold objectOfItems
    simp only [halike.item_eq hid, halike.item_eq hkind, halike.item_eq hposition, halike.noMore_eq]
    refine bind_congr fun id => bind_congr fun kind => ?_
    refine bind_eq_of_map_eq (halike.item?_eq hlabel) fun _ _ hlabel => bind_congr fun position => ?_
    refine bind_eq_of_map_eq (halike.item?_eq hsize) fun _ _ hsize => ?_
    refine bind_eq_of_map_eq (halike.item?_eq hwidth) fun _ _ hwidth => ?_
    refine bind_eq_of_map_eq (halike.item?_eq hheight) fun _ _ hheight => ?_
    rw [hlabel, hsize, hwidth, hheight]

theorem timing_eq_of_varies (h : Schema.timing.Varies v v') : timing v = timing v' := by
  have htrigger : Schema.timing.Reads 0 "trigger" trigger (·.getD .afterPrevious) := by
    refine ⟨rfl, fun v hv => ?_, by simp [Schema.timing]⟩
    obtain rfl : v = .string "after_previous" := by simpa [Schema.timing] using hv
    rfl
  have hduration : Schema.timing.Reads 1 "durationMs" (nullable uint32) Option.join :=
    .nullable rfl (by simp [Schema.timing]) (by decide)
  refine record_eq_of_varies ?_ ?_ h
  · intro members members' halike
    unfold timingOfMembers
    refine bind_eq_of_map_eq (halike.member?_eq hduration) fun _ _ hduration => ?_
    refine bind_eq_of_map_eq (halike.member?_eq htrigger) fun _ _ htrigger => ?_
    rw [hduration, htrigger]
  · intro items items' halike
    unfold timingOfItems
    simp only [halike.noMore_eq]
    refine bind_eq_of_map_eq (halike.item?_eq htrigger) fun _ _ htrigger => ?_
    refine bind_eq_of_map_eq (halike.item?_eq hduration) fun _ _ hduration => ?_
    rw [htrigger, hduration]

theorem action_eq_of_varies (h : Schema.action.Varies v v') : action v = action v' := by
  have hid : Schema.action.Reads 0 "id" text id := .plain rfl (by decide) (by decide)
  have hkind : Schema.action.Reads 1 "type" actionKind id := .plain rfl (by decide) (by decide)
  have horigin : Schema.action.Reads 2 "from" point id :=
    ⟨rfl, by simp [Schema.action], by simpa [Schema.action] using point_eq_of_varies⟩
  have htarget : Schema.action.Reads 3 "to" point id :=
    ⟨rfl, by simp [Schema.action], by simpa [Schema.action] using point_eq_of_varies⟩
  have hperformer : Schema.action.Reads 4 "fromObjectId" (nullable objectId) Option.join :=
    .nullable rfl (by simp [Schema.action]) (by decide)
  have hreceiver : Schema.action.Reads 5 "toObjectId" (nullable objectId) Option.join :=
    .nullable rfl (by simp [Schema.action]) (by decide)
  have htiming : Schema.action.Reads 6 "animation" timing (·.getD {}) := by
    refine ⟨rfl, fun v hv => ?_, by simpa [Schema.action] using timing_eq_of_varies⟩
    obtain rfl : v = .object [] := by simpa [Schema.action] using hv
    rfl
  refine record_eq_of_varies ?_ ?_ h
  · intro members members' halike
    unfold actionOfMembers
    simp only [halike.plain_eq hid, halike.plain_eq hkind, halike.plain_eq horigin,
      halike.plain_eq htarget]
    refine bind_eq_of_map_eq (halike.member?_eq htiming) fun _ _ htiming => bind_congr fun origin? => ?_
    refine bind_eq_of_map_eq (halike.member?_eq hperformer) fun _ _ hperformer => ?_
    refine bind_congr fun id? => bind_congr fun target? => ?_
    refine bind_eq_of_map_eq (halike.member?_eq hreceiver) fun _ _ hreceiver => ?_
    rw [htiming, hperformer, hreceiver]
  · intro items items' halike
    unfold actionOfItems
    simp only [halike.item_eq hid, halike.item_eq hkind, halike.item_eq horigin,
      halike.item_eq htarget, halike.noMore_eq]
    refine bind_congr fun id => bind_congr fun kind => ?_
    refine bind_congr fun origin => bind_congr fun target => ?_
    refine bind_eq_of_map_eq (halike.item?_eq hperformer) fun _ _ hperformer => ?_
    refine bind_eq_of_map_eq (halike.item?_eq hreceiver) fun _ _ hreceiver => ?_
    refine bind_eq_of_map_eq (halike.item?_eq htiming) fun _ _ htiming => ?_
    rw [hperformer, hreceiver, htiming]

theorem phase_eq_of_varies (h : Schema.phase.Varies v v') : phase v = phase v' := by
  have hid : Schema.phase.Reads 0 "id" text id := .plain rfl (by decide) (by decide)
  have hname : Schema.phase.Reads 1 "name" text id := .plain rfl (by decide) (by decide)
  have hobjects : Schema.phase.Reads 2 "objects" (list object) (·.getD []) := by
    refine ⟨rfl, fun v hv => ?_, ?_⟩
    · obtain rfl : v = .array [] := by simpa [Schema.phase] using hv
      rfl
    · simpa [Schema.phase] using list_eq_of_changesSomeItem object_eq_of_varies
  have hactions : Schema.phase.Reads 3 "actions" (list action) (·.getD []) := by
    refine ⟨rfl, fun v hv => ?_, ?_⟩
    · obtain rfl : v = .array [] := by simpa [Schema.phase] using hv
      rfl
    · simpa [Schema.phase] using list_eq_of_changesSomeItem action_eq_of_varies
  have howner : Schema.phase.Reads 4 "ballOwnerObjectId" ballOwner id :=
    .plain rfl (by decide) (by decide)
  refine record_eq_of_varies ?_ ?_ h
  · intro members members' halike
    unfold phaseOfMembers
    simp only [halike.plain_eq hid, halike.plain_eq hname, halike.plain_eq howner]
    refine bind_eq_of_map_eq (halike.member?_eq hactions) fun _ _ hactions => ?_
    refine bind_congr fun owner? => bind_congr fun id? => bind_congr fun name? => ?_
    refine bind_eq_of_map_eq (halike.member?_eq hobjects) fun _ _ hobjects => ?_
    rw [hactions, hobjects]
  · intro items items' halike
    have howner? := halike.item?_eq howner
    unfold phaseOfItems
    simp only [halike.item_eq hid, halike.item_eq hname, halike.noMore_eq]
    refine bind_congr fun id => bind_congr fun name => ?_
    refine bind_eq_of_map_eq (halike.item?_eq hobjects) fun _ _ hobjects => ?_
    refine bind_eq_of_map_eq (halike.item?_eq hactions) fun _ _ hactions => ?_
    refine bind_eq_of_map_eq (halike.item?_eq howner) fun owner? owner'? (howner : owner? = owner'?) => ?_
    rw [hobjects, hactions, howner]

/-- Variations of a written document are read alike, down to the fault for which they are refused. -/
theorem document_eq_of_varies (h : Schema.document.Varies v v') : document v = document v' := by
  have hversion : Schema.document.Reads 0 "schemaVersion" int64 id :=
    .plain rfl (by decide) (by decide)
  have hcourt : Schema.document.Reads 1 "courtTemplate" court id :=
    .plain rfl (by decide) (by decide)
  have hphases : Schema.document.Reads 2 "phases" (list phase) id := by
    refine ⟨rfl, by simp [Schema.document], ?_⟩
    simpa [Schema.document] using list_eq_of_changesSomeItem phase_eq_of_varies
  refine record_eq_of_varies ?_ ?_ h
  · intro members members' halike
    unfold documentOfMembers
    simp only [halike.plain_eq hversion, halike.plain_eq hcourt, halike.plain_eq hphases]
  · intro items items' halike
    unfold documentOfItems
    simp only [halike.item_eq hversion, halike.item_eq hcourt, halike.item_eq hphases,
      halike.noMore_eq]

end Decode

/-! ## The owner of the ball -/

/-- In a phase that is written as an object, an owner that was absent is given as `null`. -/
def NullsOwner (v v' : Value) : Prop :=
  ∃ members members', v = .object members ∧ v' = .object members' ∧
    AddsMember "ballOwnerObjectId" .null members members'

namespace Decode

variable {β : Type} {v v' : Value} {index : ℕ}

theorem member?_of_agreeExcept {key other : String} {members members' : List (String × Value)}
    (hagree : AgreeExcept key members members') (hne : other ≠ key) (decode : Decoder β) :
    member? members' other decode = member? members other decode := by
  unfold member?
  rw [hagree other hne]

/-- A phase that passes the ball on is read as one where nobody has it. -/
theorem phase_of_nullsOwner (h : NullsOwner v v') {p : Phase Float} (hread : phase v = .ok p) :
    p.ballOwner = .inherit ∧ phase v' = .ok { p with ballOwner := .nobody } := by
  obtain ⟨members, members', rfl, rfl, hadds⟩ := h
  have hsame : ∀ {β : Type} {other : String} (decode : Decoder β), other ≠ "ballOwnerObjectId" →
      member? members' other decode = member? members other decode := fun decode hne =>
    member?_of_agreeExcept hadds.agree hne decode
  have hbefore : member? members "ballOwnerObjectId" ballOwner = .ok none := by
    unfold member?
    rw [hadds.absent]
  have hafter : member? members' "ballOwnerObjectId" ballOwner = .ok (some .nobody) :=
    member?_of_lookup hadds.added rfl
  replace hread : phaseOfMembers members = .ok p := hread
  show p.ballOwner = .inherit ∧ phaseOfMembers members' = .ok { p with ballOwner := .nobody }
  unfold phaseOfMembers at hread ⊢
  rw [hsame (list action) (by decide), hsame text (by decide), hsame text (by decide),
    hsame (list object) (by decide), hafter]
  rw [hbefore] at hread
  simp only [bind_eq_ok_iff] at hread ⊢
  obtain ⟨actions?, hactions?, owner?, howner?, id?, hid?, name?, hname?, objects?, hobjects?, id, hid,
    name, hname, heq⟩ := hread
  cases howner?
  cases heq
  exact ⟨rfl, actions?, hactions?, _, rfl, id?, hid?, name?, hname?, objects?, hobjects?, id, hid,
    name, hname, rfl⟩

theorem list_phase_of_nullsOwner (h : ChangesItem index NullsOwner v v') {l : List (Phase Float)}
    (hread : list phase v = .ok l) :
    ∃ p, l[index]? = some p ∧ p.ballOwner = .inherit ∧
      list phase v' = .ok (l.set index { p with ballOwner := .nobody }) := by
  cases h with
  | item hbefore hchange =>
      obtain ⟨p, hphase, hentry, hset⟩ := each_set hread hbefore
      obtain ⟨hinherit, hphase'⟩ := phase_of_nullsOwner hchange hphase
      exact ⟨p, hentry, hinherit, hset _ _ hphase'⟩

/-- Nothing else about the document changes. -/
theorem document_of_nullsOwner
    (h : ChangesField Schema.document.fields "phases" (ChangesItem index NullsOwner) v v')
    {d : Document Float} (hread : document v = .ok d) :
    ∃ p, d.phases[index]? = some p ∧ p.ballOwner = .inherit ∧
      document v' =
        .ok { d with phases := d.phases.set index { p with ballOwner := .nobody } } := by
  cases h with
  | @member members members' phases phases' hbefore hafter hagree hchange =>
      replace hread : documentOfMembers members = .ok d := hread
      simp only [documentOfMembers, bind_eq_ok_iff] at hread
      obtain ⟨court?, hcourt?, phases?, hphases?, version?, hversion?, version, hversion, court, hcourt,
        l, hl, heq⟩ := hread
      cases heq
      unfold member? at hphases?
      rw [hbefore] at hphases?
      obtain ⟨l', hlist, hsome⟩ := map_eq_ok_iff.mp hphases?
      obtain rfl : l' = l := Option.some.inj (hsome.trans (required_eq_ok hl))
      obtain ⟨p, hp, hinherit, hlist'⟩ := list_phase_of_nullsOwner hchange hlist
      refine ⟨p, hp, hinherit, ?_⟩
      show documentOfMembers members' = _
      simp only [documentOfMembers, bind_eq_ok_iff]
      refine ⟨court?, ?_, _, member?_of_lookup hafter hlist', version?, ?_, version, hversion, court,
        hcourt, _, rfl, rfl⟩
      · rwa [member?_of_agreeExcept hagree (by decide)]
      · rwa [member?_of_agreeExcept hagree (by decide)]
  | @item items place phases phases' hfield hbefore hchange =>
      obtain rfl : place = 2 :=
        (List.getElem?_inj (List.getElem?_eq_some_iff.mp hfield).1 (by decide)).mp (hfield.trans rfl)
      replace hread : documentOfItems items = .ok d := hread
      simp only [documentOfItems, bind_eq_ok_iff] at hread
      obtain ⟨version, hversion, court, hcourt, l, hl, done, hmore, heq⟩ := hread
      cases heq
      unfold item at hversion hcourt hl
      rw [hbefore] at hl
      obtain ⟨p, hp, hinherit, hlist'⟩ := list_phase_of_nullsOwner hchange hl
      refine ⟨p, hp, hinherit, ?_⟩
      show documentOfItems (items.set 2 phases') = _
      simp only [documentOfItems, bind_eq_ok_iff]
      refine ⟨version, ?_, court, ?_, _, ?_, done, ?_, rfl⟩
      · rwa [item, List.getElem?_set_ne (by decide)]
      · rwa [item, List.getElem?_set_ne (by decide)]
      · rwa [item, List.getElem?_set_self (List.getElem?_eq_some_iff.mp hbefore).1]
      · rwa [noMore, List.length_set]

end Decode

/-! ## Loading -/

namespace Document

theorem ofJson_eq_of_varies {v v' : Value} (h : Schema.document.Varies v v') :
    ofJson v = ofJson v' := by
  unfold ofJson
  rw [Decode.document_eq_of_varies v v' h]

/-- Any number of variations of a written document, made or undone, leave what is loaded as it is, or the
reason for which it is refused.  The owner of the ball is different: in a document that is loaded, a phase
whose absent owner is given as `null` is loaded with nobody on the ball, and nothing else changes. -/
theorem ofJson_tolerates :
    (∀ v v', Relation.EqvGen Schema.document.Varies v v' → ofJson v' = ofJson v) ∧
    ∀ index v v' d,
      ChangesField Schema.document.fields "phases" (ChangesItem index NullsOwner) v v' →
      ofJson v = .ok d →
      ∃ p, d.phases[index]? = some p ∧ p.ballOwner = .inherit ∧
        ofJson v' = .ok { d with phases := d.phases.set index { p with ballOwner := .nobody } } := by
  constructor
  · intro v v' h
    induction h with
    | rel v v' hvaries => exact (ofJson_eq_of_varies hvaries).symm
    | refl v => rfl
    | symm v v' _ ih => exact ih.symm
    | trans v v' v'' _ _ hfirst hsecond => exact hsecond.trans hfirst
  · intro index v v' d h hload
    obtain ⟨hread, hsound⟩ := ofJson_eq_ok_iff.mp hload
    obtain ⟨p, hp, hinherit, hread'⟩ := Decode.document_of_nullsOwner h hread
    have hwell := hsound.wellFormed hp
    have hnobody : Phase.WellFormed { p with ballOwner := .nobody } :=
      { hwell with owner_mem := fun _ howner => nomatch howner }
    exact ⟨p, hp, hinherit, ofJson_eq_ok_iff.mpr ⟨hread', hsound.set hp hnobody rfl⟩⟩

/-- The ball is given the size that it has anyway, and the receiver of a cut is no longer `null`.  An owner
of the ball that is `null` makes a difference. -/
theorem ofJson_tolerates_cut :
    let place : Value := .array [.number (.ofUInt32 5), .number (.ofUInt32 7)]
    let ball (size : List (String × Value)) : Value :=
      .object ([("id", .string "b1"), ("type", .string "ball"), ("position", place)] ++ size)
    let cut (receiver : List (String × Value)) : Value :=
      .object ([("id", .string "a1"), ("type", .string "cut"), ("from", place), ("to", place)] ++ receiver)
    let phase (size receiver owner : List (String × Value)) : Value :=
      .object ([("id", .string "p1"), ("name", .string "Cut"), ("objects", .array [ball size]),
        ("actions", .array [cut receiver])] ++ owner)
    let document (phase : Value) : Value :=
      .object [("schemaVersion", .number (.ofInt64 1)), ("courtTemplate", .string "half_court"),
        ("phases", .array [phase])]
    let loaded (owner : BallOwner) : Document Float :=
      .new .half [{
        id := ⟨"p1"⟩, name := "Cut"
        objects := [{ id := ⟨"b1"⟩, kind := .ball, label := none, position := ⟨5, 7⟩, size := 28
                      width := none, height := none }]
        actions := [.freehand ⟨"a1"⟩ .cut ⟨5, 7⟩ ⟨5, 7⟩]
        ballOwner := owner }]
    let null : List (String × Value) := [("toObjectId", .null)]
    let size : List (String × Value) := [("size", .number (.ofUInt32 28))]
    ofJson (document (phase [] null [])) = .ok (loaded .inherit) ∧
      ofJson (document (phase size [] [])) = .ok (loaded .inherit) ∧
      ofJson (document (phase [] null [("ballOwnerObjectId", .null)])) = .ok (loaded .nobody) := by
  intro place ball cut phase document loaded null size
  obtain ⟨htolerates, howner⟩ := ofJson_tolerates
  have hload : ofJson (document (phase [] null [])) = .ok (loaded .inherit) := rfl
  have hphase : ∀ {p p' : Value}, Schema.phase.Varies p p' →
      Schema.document.Varies (document p) (document p') := fun h =>
    .nested List.mem_cons_self (.member rfl rfl (agreeExcept_middle [_, _] [] "phases" _ _)
      ⟨0, .item rfl h⟩)
  have hsize : Schema.object.Varies (ball []) (ball size) :=
    .default (by simp [Schema.object]) (addsMember_append rfl _)
  have hnull : Schema.action.Varies (cut []) (cut null) :=
    .default (by simp [Schema.action]) (addsMember_append rfl _)
  have hgiven : Schema.phase.Varies (phase [] null []) (phase size null []) :=
    .nested List.mem_cons_self (.member rfl rfl (agreeExcept_middle [_, _] [_] "objects" _ _)
      ⟨0, .item rfl hsize⟩)
  have hdropped : Schema.phase.Varies (phase size [] []) (phase size null []) :=
    .nested (List.mem_cons_of_mem _ List.mem_cons_self)
      (.member rfl rfl (agreeExcept_middle [_, _, _] [] "actions" _ _) ⟨0, .item rfl hnull⟩)
  have hvaried : Relation.EqvGen Schema.document.Varies (document (phase [] null []))
      (document (phase size [] [])) :=
    .trans _ _ _ (.rel _ _ (hphase hgiven)) (.symm _ _ (.rel _ _ (hphase hdropped)))
  refine ⟨hload, (htolerates _ _ hvaried).trans hload, ?_⟩
  obtain ⟨p, hp, -, hload'⟩ := howner 0 (document (phase [] null []))
    (document (phase [] null [("ballOwnerObjectId", .null)])) _
    (.member rfl rfl (agreeExcept_middle [_, _] [] "phases" _ _)
      (.item rfl ⟨_, _, rfl, rfl, addsMember_append rfl _⟩)) hload
  cases hp
  exact hload'

end Document

end PlayDiagram
