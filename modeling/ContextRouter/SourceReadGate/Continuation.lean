import ContextRouter.Python.Json
import ContextRouter.SourceReadGate

open python

namespace context_router.source_read_gate

def texts (items : List Str) : Value := .tuple (items.map .str)

/-- The items of a key that only some dictionaries of a state have. -/
def optional_item (key : Str) : Option (List Str) → List (Str × Value)
  | none => []
  | some items => [(key, texts items)]

/-- An outcome as the dictionary that is returned. -/
def Outcome.to_dict : Outcome → Value
  | .NOT_APPLICABLE reason => .dict [("state", .str "NOT_APPLICABLE"), ("reason", .str reason)]
  | .PASS sources satisfied extra_reads => .dict ([(Str.ofString "state", .str "PASS"),
      (Str.ofString "sources", texts sources)] ++ optional_item "satisfied" satisfied ++
      [(Str.ofString "extra_reads", texts extra_reads)])
  | .VERIFY reason sources missing extra_reads => .dict ([(Str.ofString "state", .str "VERIFY"),
      (Str.ofString "reason", .str reason), (Str.ofString "sources", texts sources)] ++
      optional_item "missing" missing ++ [(Str.ofString "extra_reads", texts extra_reads)])
  | .UNKNOWN reason sources unavailable extra_reads => .dict ([(Str.ofString "state", .str "UNKNOWN"),
      (Str.ofString "reason", .str reason), (Str.ofString "sources", texts sources)] ++
      optional_item "unavailable" unavailable ++ [(Str.ofString "extra_reads", texts extra_reads)])
  | .DATA_ERROR errors => .dict [("state", .str "DATA_ERROR"), ("errors", .list (errors.map .str))]

/-- The dictionaries agree under every key but `errors`. -/
def Outcome.Alike (outcome outcome' : Outcome) : Prop :=
  ∀ key, key ≠ Str.ofString "errors" → outcome.to_dict.get? key = outcome'.to_dict.get? key

/-- A turn of its own that declares exactly what is in force. -/
def GateRequest.redeclared (request : GateRequest) : GateRequest :=
  let fresh : GateRequest :=
    { read_log := request.read_log
      unavailable_sources := request.unavailable_sources
      no_external_read := request.no_external_read }
  match request.requirement? with
  | none => fresh
  | some requirement => { fresh with declared_sources := requirement.sources, mode := requirement.mode }

theorem requirement?_redeclared (request : GateRequest) : request.redeclared.requirement? = request.requirement? := by
  obtain ⟨hnone, _⟩ | ⟨requirement, hrequirement, hne, _⟩ := effective_sources_eq request
  · rw [GateRequest.redeclared, hnone]
    rfl
  · rw [GateRequest.redeclared, hrequirement, GateRequest.requirement?, if_pos hne]

/-- It keeps what was read and what can be. -/
theorem reads_redeclared (request : GateRequest) : request.redeclared.read_log = request.read_log ∧
    request.redeclared.unavailable_sources = request.unavailable_sources ∧
    request.redeclared.no_external_read = request.no_external_read := by
  unfold GateRequest.redeclared
  cases request.requirement? with
  | none => exact ⟨rfl, rfl, rfl⟩
  | some requirement => exact ⟨rfl, rfl, rfl⟩

theorem alike_of_errors (errors errors' : List Str) : (Outcome.DATA_ERROR errors).Alike (.DATA_ERROR errors') := by
  intro key hkey
  simp only [Outcome.to_dict, Value.get?, lookupItem, if_neg hkey.symm]

/-- Beyond the errors nothing depends on where the requirement in force comes from. -/
theorem evaluate_alike {request request' : GateRequest} (hrequirement : request.requirement? = request'.requirement?)
    (hread : request.read_log = request'.read_log)
    (hunavailable : request.unavailable_sources = request'.unavailable_sources)
    (hexternal : request.no_external_read = request'.no_external_read) :
    (evaluate request).Alike (evaluate request') := by
  obtain ⟨hnone, hsources, hvalid⟩ | ⟨requirement, hlive, hne, hsources, hmode, hvalid⟩ := effective_sources_eq request
  · obtain ⟨_, hsources', hvalid'⟩ | ⟨_, hlive', _⟩ := effective_sources_eq request'
    · intro key _
      simp only [evaluate, hvalid, hvalid', hsources, hsources', ne_eq, not_true_eq_false, if_false, if_true]
    · rw [← hrequirement, hnone] at hlive'
      cases hlive'
  · obtain ⟨hnone', _⟩ | ⟨requirement', hlive', hne', hsources', hmode', hvalid'⟩ := effective_sources_eq request'
    · rw [← hrequirement, hlive] at hnone'
      cases hnone'
    · rw [← hrequirement, hlive, Option.some.injEq] at hlive'
      subst requirement'
      by_cases hwell : validate_request request = []
      · have hwell' := hvalid'.mpr (hvalid.mp hwell)
        intro key _
        simp only [evaluate, hwell, hwell', hsources, hsources', hmode, hmode', hread, hunavailable, hexternal]
      · have hwell' := mt (fun h => hvalid.mpr (hvalid'.mp h)) hwell
        simp only [evaluate, ne_eq, hwell, hwell', not_false_eq_true, if_true]
        exact alike_of_errors _ _

/-- A continuation comes to what declaring its sources again would, and two turns with
    one requirement in force and the same reads come to the same, whatever else their
    requests hold. -/
theorem continuation_is_redeclaration (request : GateRequest) :
    (evaluate request).Alike (evaluate request.redeclared) ∧
    ∀ request' : GateRequest, request.requirement? = request'.requirement? → request.read_log = request'.read_log →
      request.unavailable_sources = request'.unavailable_sources →
      request.no_external_read = request'.no_external_read →
        (evaluate request).Alike (evaluate request') := by
  constructor
  · obtain ⟨hread, hunavailable, hexternal⟩ := reads_redeclared request
    exact evaluate_alike (requirement?_redeclared request).symm hread.symm hunavailable.symm hexternal.symm
  · intro request' hrequirement hread hunavailable hexternal
    exact evaluate_alike hrequirement hread hunavailable hexternal

end context_router.source_read_gate
