import GraphImport.Spec.Basic
/-!
# Job specs as documents

The document form of each part of a job spec: every field present, in order, words for the
members of vocabularies, null for what is absent.
-/
namespace GraphImport.Spec

open Document (Value)

def wordOrNull {α : Type} [Vocabulary α] : Option α → Value
  | none => .null
  | some member => .text (word member)

def Source.toDocument (s : Source) : Value :=
  .record [("name", .text s.name), ("query", .ofText? s.query)]

def Mapping.toDocument (m : Mapping) : Value :=
  .record [
    ("name", .text m.name),
    ("field", .ofText? m.field),
    ("constant", .ofText? m.constant),
    ("fragment_type", .text (word m.fragment)),
    ("role", .text (word m.role)),
    ("type", wordOrNull m.type),
    ("indexed", .bool m.indexed),
    ("unique", .bool m.unique),
    ("mandatory", .bool m.mandatory)]

def Aggregation.toDocument (a : Aggregation) : Value :=
  .record [("field", .ofText? a.field), ("expression", .text a.expression)]

def Transform.toDocument (t : Transform) : Value :=
  .record [
    ("sql", .ofText? t.sql),
    ("group", .bool t.group),
    ("aggregations", .list (t.aggregations.map Aggregation.toDocument)),
    ("order_by", .ofText? t.orderBy),
    ("where", .ofText? t.filter),
    ("limit", .int t.limit)]

def Target.toDocument (t : Target) : Value :=
  .record [
    ("name", .text t.name),
    ("active", .bool t.active),
    ("type", .text (word t.type)),
    ("source", .text t.source),
    ("custom_query", .ofText? t.customQuery),
    ("mappings", .list (t.mappings.map Mapping.toDocument)),
    ("transform", t.transform.toDocument),
    ("save_mode", .text (word t.saveMode)),
    ("edge_nodes_match_mode", .text (word t.edgeNodesMatchMode))]

def Action.toDocument (a : Action) : Value :=
  .record [
    ("name", .text a.name),
    ("type", .text (word a.type)),
    ("options", .record a.options),
    ("execute_after", wordOrNull a.executeAfter),
    ("execute_after_name", .ofText? a.executeAfterName)]

def JobSpec.toDocument (s : JobSpec) : Value :=
  .record [
    ("sources", .list (s.sources.map Source.toDocument)),
    ("targets", .list (s.targets.map Target.toDocument)),
    ("actions", .list (s.actions.map Action.toDocument))]

end GraphImport.Spec
