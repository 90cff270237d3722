import Roster.Proofs.Text
import Roster.ServiceError

/-! What a client is told of an error of the service. The message begins in one of five ways, by the
kind of the error, and goes on with what the error says for itself. None of the beginnings is the
beginning of another, so the message tells the whole error even if what the error says for itself
looks like the message of another one. -/
namespace Roster

namespace ServiceError

def Kind.opening : Kind → String
  | notFound => "Not found: "
  | invalidInput => "Invalid request: "
  | io => "Service error: IO error: "
  | yaml => "Service error: YAML error: "
  | json => "Service error: JSON error: "

/-- No text is out of reach of an error. -/
theorem exists_kind_detail (kind : Kind) (detail : String) :
    ∃ e : ServiceError, e.kind = kind ∧ e.detail = detail := by
  cases kind with
  | notFound => exact ⟨.notFound detail, rfl, rfl⟩
  | invalidInput => exact ⟨.invalidInput detail, rfl, rfl⟩
  | io => exact ⟨.io (.other detail), rfl, rfl⟩
  | yaml => exact ⟨.yaml (.other detail), rfl, rfl⟩
  | json => exact ⟨.json ⟨.other detail, 0, 0⟩, rfl, rfl⟩

theorem Kind.prefixFree_opening : Text.PrefixFree fun kind : Kind => kind.opening.toList := by
  intro kind kind'
  cases kind <;> cases kind' <;> simp [opening]

end ServiceError

namespace RpcError

theorem message_ofService (e : ServiceError) :
    (ofService e).message = e.kind.opening ++ e.detail := by
  have hjoin (s t : String) : "Service error: " ++ (s ++ ": " ++ t) =
      ("Service error: " ++ s ++ ": ") ++ t := by
    simp [String.append_assoc]
  cases e with
  | notFound message => rfl
  | invalidInput message => rfl
  | io error => exact hjoin _ _
  | yaml error => exact hjoin _ _
  | json error => exact hjoin _ _

/-- An error of any kind can say anything for itself. The message to a client tells both, the kind
and all that is said. For a missing record it is the message of the service, for invalid input the
bare detail behind a heading of its own, and for all other errors the message of the service in
full. -/
theorem message_tells_error :
    (∀ kind detail, ∃ e : ServiceError, e.kind = kind ∧ e.detail = detail) ∧
    (∀ e e' : ServiceError, (ofService e).message = (ofService e').message ↔
      e.kind = e'.kind ∧ e.detail = e'.detail) ∧
    ∀ e : ServiceError, (ofService e).message = match e.kind with
      | .notFound => e.message
      | .invalidInput => "Invalid request: " ++ e.detail
      | .io | .yaml | .json => "Service error: " ++ e.message := by
  refine ⟨ServiceError.exists_kind_detail, ?_, ?_⟩
  · intro e e'
    rw [message_ofService, message_ofService]
    constructor
    · intro h
      have hlist := congrArg String.toList h
      rw [String.toList_append, String.toList_append] at hlist
      obtain ⟨hkind, hdetail⟩ := ServiceError.Kind.prefixFree_opening.append_inj hlist
      exact ⟨hkind, String.toList_inj.mp hdetail⟩
    · rintro ⟨hkind, hdetail⟩
      rw [hkind, hdetail]
  · intro e
    cases e with
    | notFound message => rfl
    | invalidInput message => rfl
    | io error => rfl
    | yaml error => rfl
    | json error => rfl

end RpcError
end Roster
