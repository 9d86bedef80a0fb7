import MeshFormation.Proofs.ControlMessage.RoundTrip
import MeshFormation.Proofs.Member.RoundTrip
import MeshFormation.Service

/-!
# Messages as bytes

The bytes of a control message stand for that message and for no other one. A service therefore
treats a delivery of the bytes as it treats the message itself.
-/

namespace MeshFormation

/-- The bytes of a message are delivered as the event that the message is. -/
theorem event_control_encode (message : ControlMessage) :
    (Delivery.control message.encode).event = .ok message.event := by
  rw [Delivery.event, ControlMessage.decode_encode]
  rfl

/-- A service makes the same of a message and of its bytes: the result, the state and all that it
asks for. -/
theorem Service.deliver_control_encode (service : Service) (backend : Backend)
    (message : ControlMessage) :
    service.deliver backend (.control message.encode) = service.receive backend message := by
  rw [deliver, event_control_encode, receive]

/-- Messages and members survive their JSON text, whatever ranks and characters are in them. -/
theorem json_faithful :
    (∀ message : ControlMessage, ControlMessage.decode message.encode = .ok message) ∧
      Function.Injective ControlMessage.encode ∧
      (∀ (service : Service) (backend : Backend) (message : ControlMessage),
        service.deliver backend (.control message.encode) = service.receive backend message) ∧
      ∀ member : Member, Member.ofJson? member.toJson = some member :=
  ⟨ControlMessage.decode_encode, ControlMessage.encode_injective, Service.deliver_control_encode,
    Member.ofJson?_toJson⟩

end MeshFormation
