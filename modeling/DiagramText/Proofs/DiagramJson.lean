import DiagramText.Diagram.Json
import DiagramText.Proofs.JsonRecords

namespace DiagramText

open Json (Faithful faithful_bool faithful_nat faithful_number faithful_string)
open Json.Field (required)

theorem Kind.tag_injective : Function.Injective tag := by
  intro j k h
  apply Option.some.inj
  rw [← ofTag?_tag j, h, ofTag?_tag]

namespace Pie.Section

def fields : List (Json.Field Section) :=
  [required "label" faithful_string label, required "value" faithful_number value]

theorem faithful_toJson : Faithful toJson := by
  apply Faithful.record fields
  · intro s
    simp [toJson, fields]
  · decide
  · intro ⟨_, _⟩ ⟨_, _⟩ h
    simpa [fields] using h

end Pie.Section

namespace Packet.Block

def fields : List (Json.Field Block) :=
  [.optional "start" faithful_nat first, .optional "end" faithful_nat last,
    .optional "bits" faithful_nat bits, required "label" faithful_string label]

theorem faithful_toJson : Faithful toJson := by
  apply Faithful.record fields
  · intro b
    simp [toJson, fields]
  · decide
  · intro ⟨_, _, _, _⟩ ⟨_, _, _, _⟩ h
    simpa [fields] using h

end Packet.Block

namespace Sankey

def Link.fields : List (Json.Field Link) :=
  [required "source" faithful_string source, required "target" faithful_string target,
    required "value" faithful_number value]

theorem Link.faithful_toJson : Faithful toJson := by
  apply Faithful.record fields
  · intro l
    simp [toJson, fields]
  · decide
  · intro ⟨_, _, _⟩ ⟨_, _, _⟩ h
    simpa [fields] using h

theorem faithful_node : Faithful fun id : String ↦ .object [("id", .string id)] := by
  apply Faithful.record [required "id" faithful_string id]
  · intro s
    simp
  · decide
  · intro s t h
    simpa using h

end Sankey

namespace Timeline

def Period.fields : List (Json.Field Period) :=
  [required "title" faithful_string title, required "events" faithful_string.array events]

theorem Period.faithful_toJson : Faithful toJson := by
  apply Faithful.record fields
  · intro p
    simp [toJson, fields]
  · decide
  · intro ⟨_, _⟩ ⟨_, _⟩ h
    simpa [fields] using h

def Section.fields : List (Json.Field Section) :=
  [required "title" (faithful_string.ofOption fun _ ↦ ⟨nofun, nofun⟩) title,
    required "periods" Period.faithful_toJson.array periods]

theorem Section.faithful_toJson : Faithful toJson := by
  apply Faithful.record fields
  · intro s
    simp [toJson, fields]
  · decide
  · intro ⟨_, _⟩ ⟨_, _⟩ h
    simpa [fields] using h

end Timeline

namespace Architecture

def Group.fields : List (Json.Field Group) :=
  [required "id" faithful_string id, .optional "icon" faithful_string icon,
    .optional "title" faithful_string title, .optional "in" faithful_string parent]

theorem Group.faithful_toJson : Faithful toJson := by
  apply Faithful.record fields
  · intro g
    simp [toJson, fields]
  · decide
  · intro ⟨_, _, _, _⟩ ⟨_, _, _, _⟩ h
    simpa [fields] using h

def Service.fields : List (Json.Field Service) :=
  [required "id" faithful_string id, .optional "icon" faithful_string icon,
    .optional "iconText" faithful_string iconText, .optional "title" faithful_string title,
    .optional "in" faithful_string parent]

theorem Service.faithful_toJson : Faithful toJson := by
  apply Faithful.record fields
  · intro s
    simp [toJson, fields]
  · decide
  · intro ⟨_, _, _, _, _⟩ ⟨_, _, _, _, _⟩ h
    simpa [fields] using h

def Junction.fields : List (Json.Field Junction) :=
  [required "id" faithful_string id, .optional "in" faithful_string parent]

theorem Junction.faithful_toJson : Faithful toJson := by
  apply Faithful.record fields
  · intro j
    simp [toJson, fields]
  · decide
  · intro ⟨_, _⟩ ⟨_, _⟩ h
    simpa [fields] using h

theorem Side.letter_injective : Function.Injective letter := by
  have hread (s : Side) : ofLetter? s.letter = some s := by
    cases s <;> decide
  intro a b h
  apply Option.some.inj
  rw [← hread a, h, hread]

theorem Side.faithful_letter : Faithful fun s : Side ↦ .string s.letter :=
  faithful_string.comp letter_injective

def Edge.fields : List (Json.Field Edge) :=
  [required "lhsId" faithful_string fun e ↦ e.left.id,
    required "lhsGroup" faithful_bool fun e ↦ e.left.isGroup,
    required "lhsDir" Side.faithful_letter fun e ↦ e.left.side,
    required "lhsInto" faithful_bool fun e ↦ e.left.isArrow,
    .optional "title" faithful_string title,
    required "rhsInto" faithful_bool fun e ↦ e.right.isArrow,
    required "rhsDir" Side.faithful_letter fun e ↦ e.right.side,
    required "rhsId" faithful_string fun e ↦ e.right.id,
    required "rhsGroup" faithful_bool fun e ↦ e.right.isGroup]

theorem Edge.faithful_toJson : Faithful toJson := by
  apply Faithful.record fields
  · intro e
    simp [toJson, fields]
  · decide
  · intro ⟨⟨_, _, _, _⟩, ⟨_, _, _, _⟩, _⟩ ⟨⟨_, _, _, _⟩, ⟨_, _, _, _⟩, _⟩ h
    simp only [fields, List.forall_mem_cons, Json.Field.agree_required_iff,
      Json.Field.agree_optional_iff] at h
    obtain ⟨rfl, rfl, rfl, rfl, rfl, rfl, rfl, rfl, rfl, -⟩ := h
    rfl

end Architecture

namespace Annotations

variable {α : Type} {part : α → Annotations}

/-- The titles are written among the fields of the tree that has them. -/
def fields (part : α → Annotations) : List (Json.Field α) :=
  [.optional "title" faithful_string fun d ↦ (part d).title,
    .optional "accTitle" faithful_string fun d ↦ (part d).accTitle,
    .optional "accDescr" faithful_string fun d ↦ (part d).accDescr]

theorem members_fields (part : α → Annotations) (d : α) :
    Json.Field.members (fields part) d = (part d).members := by
  simp [fields, members]

theorem eq_of_agree {d e : α} (h : ∀ field ∈ fields part, field.Agree d e) : part d = part e := by
  simp only [fields, List.forall_mem_cons, Json.Field.agree_optional_iff] at h
  generalize part d = a, part e = b at h
  obtain ⟨_, _, _⟩ := a
  obtain ⟨_, _, _⟩ := b
  obtain ⟨rfl, rfl, rfl, -⟩ := h
  rfl

end Annotations

namespace Diagram

theorem faithful_tree {α : Type} (make : α → Diagram) {k : Kind} (part : α → Annotations)
    (own : List (Json.Field α)) (hkind : ∀ t, (make t).kind = k)
    (hinner : ∀ t, (make t).innerMembers = Json.Field.members own t)
    (hpart : ∀ t, (make t).annotations = part t)
    (hkeys : ("$type" :: (own.map Json.Field.key ++ ["title", "accTitle", "accDescr"])).Nodup)
    (hown : ∀ t u, (∀ field ∈ own, field.Agree t u) → part t = part u → t = u) :
    Faithful fun t ↦ (make t).toJson := by
  apply Faithful.record
    (required "$type" faithful_string (fun _ ↦ k.tag) :: (own ++ Annotations.fields part))
  · intro t
    rw [toJson, hkind, hinner, hpart, Json.Field.members_cons_required, Json.Field.members_append,
      Annotations.members_fields, List.cons_append]
  · rw [List.map_cons, List.map_append]
    exact hkeys
  · intro t u h
    rw [List.forall_mem_cons, List.forall_mem_append] at h
    exact hown t u h.2.1 (Annotations.eq_of_agree h.2.2)

theorem faithful_info : Faithful fun t ↦ (info t).toJson := by
  apply faithful_tree info Info.annotations [required "showInfo" faithful_bool Info.showInfo]
    (fun _ ↦ rfl) (fun _ ↦ rfl) (fun _ ↦ rfl) (by decide)
  intro ⟨_, _⟩ ⟨_, _⟩ h hpart
  simpa using And.intro h hpart

theorem faithful_pie : Faithful fun t ↦ (pie t).toJson := by
  apply faithful_tree pie Pie.annotations [required "showData" faithful_bool Pie.showData,
    required "sections" Pie.Section.faithful_toJson.array Pie.sections]
    (fun _ ↦ rfl) (fun _ ↦ rfl) (fun _ ↦ rfl) (by decide)
  intro ⟨_, _, _⟩ ⟨_, _, _⟩ h hpart
  simpa [and_assoc] using And.intro h hpart

theorem faithful_packet : Faithful fun t ↦ (packet t).toJson := by
  apply faithful_tree packet Packet.annotations
    [required "blocks" Packet.Block.faithful_toJson.array Packet.blocks]
    (fun _ ↦ rfl) (fun _ ↦ rfl) (fun _ ↦ rfl) (by decide)
  intro ⟨_, _⟩ ⟨_, _⟩ h hpart
  simpa [and_assoc] using And.intro h hpart

theorem faithful_sankey : Faithful fun t ↦ (sankey t).toJson := by
  apply faithful_tree sankey Sankey.annotations
    [required "links" Sankey.Link.faithful_toJson.array Sankey.links,
      required "nodes" Sankey.faithful_node.array Sankey.nodes]
    (fun _ ↦ rfl) (fun _ ↦ rfl) (fun _ ↦ rfl) (by decide)
  intro ⟨_, _, _⟩ ⟨_, _, _⟩ h hpart
  simpa [and_assoc] using And.intro h hpart

theorem faithful_timeline : Faithful fun t ↦ (timeline t).toJson := by
  apply faithful_tree timeline Timeline.annotations
    [required "sections" Timeline.Section.faithful_toJson.array Timeline.sections]
    (fun _ ↦ rfl) (fun _ ↦ rfl) (fun _ ↦ rfl) (by decide)
  intro ⟨_, _⟩ ⟨_, _⟩ h hpart
  simpa [and_assoc] using And.intro h hpart

open Architecture in
theorem faithful_architecture : Faithful fun t ↦ (architecture t).toJson := by
  apply faithful_tree architecture Architecture.annotations
    [required "groups" Group.faithful_toJson.array groups,
      required "services" Service.faithful_toJson.array services,
      required "junctions" Junction.faithful_toJson.array junctions,
      required "edges" Edge.faithful_toJson.array edges]
    (fun _ ↦ rfl) (fun _ ↦ rfl) (fun _ ↦ rfl) (by decide)
  intro ⟨_, _, _, _, _⟩ ⟨_, _, _, _, _⟩ h hpart
  simpa [and_assoc] using And.intro h hpart

theorem kind_eq_of_same {d e : Diagram} (h : Json.Same d.toJson e.toJson) : d.kind = e.kind := by
  have htag := h.rel_lookup "$type"
  rw [List.cons_append, List.cons_append, List.lookup_cons_self, List.lookup_cons_self] at htag
  cases htag with
  | some hsame => exact Kind.tag_injective (faithful_string.eq_of_same _ _ hsame)

theorem faithful_toJson : Faithful toJson := by
  constructor
  · intro d
    cases d with
    | info t => exact faithful_info.wellKeyed t
    | pie t => exact faithful_pie.wellKeyed t
    | packet t => exact faithful_packet.wellKeyed t
    | sankey t => exact faithful_sankey.wellKeyed t
    | timeline t => exact faithful_timeline.wellKeyed t
    | architecture t => exact faithful_architecture.wellKeyed t
  · intro d e h
    have hkind := kind_eq_of_same h
    cases d with
    | info t =>
      cases e with
      | info u => exact congrArg info (faithful_info.eq_of_same t u h)
      | _ => cases hkind
    | pie t =>
      cases e with
      | pie u => exact congrArg pie (faithful_pie.eq_of_same t u h)
      | _ => cases hkind
    | packet t =>
      cases e with
      | packet u => exact congrArg packet (faithful_packet.eq_of_same t u h)
      | _ => cases hkind
    | sankey t =>
      cases e with
      | sankey u => exact congrArg sankey (faithful_sankey.eq_of_same t u h)
      | _ => cases hkind
    | timeline t =>
      cases e with
      | timeline u => exact congrArg timeline (faithful_timeline.eq_of_same t u h)
      | _ => cases hkind
    | architecture t =>
      cases e with
      | architecture u => exact congrArg architecture (faithful_architecture.eq_of_same t u h)
      | _ => cases hkind

/-- Diagrams are written as the same document, its members in any order, only if they are the same;
and no object of the document has a key twice, so that none of its members hides another. -/
theorem same_toJson_iff (d e : Diagram) :
    d.toJson.WellKeyed ∧ (Json.Same d.toJson e.toJson ↔ d = e) := by
  constructor
  · exact faithful_toJson.wellKeyed d
  · constructor
    · exact faithful_toJson.eq_of_same d e
    · intro h
      rw [h]
      exact Json.Same.refl e.toJson

end Diagram

end DiagramText
