import Aqua.Model.SessionManager
import Aqua.Runtime.Calls

/-! # The id maps of the session manager

The map from MQTT ids to connections and the map back are updated by separate inserts. They stay
inverse to each other exactly as long as no registration gives a known MQTT id to another connection,
or a known connection another MQTT id: the entry of the pair that is replaced is never removed from
the opposite map.
-/

namespace Aqua

open Runtime

/-- The calls that touch the id maps. -/
inductive SessionCall where
  | registerMqttId (mqttId : String) (clientId : Uuid)
  | unregisterMqttId (mqttId : String)
  | registerClientId (clientId : Uuid) (outbound : Outbound)
  | unregisterClientId (clientId : Uuid)

namespace SessionManager

def call (self : SessionManager) : SessionCall → SessionManager
  | .registerMqttId mqttId clientId => self.registerMqttId mqttId clientId
  | .unregisterMqttId mqttId => self.unregisterMqttId mqttId
  | .registerClientId clientId outbound => self.registerClientId clientId outbound
  | .unregisterClientId clientId => self.unregisterClientId clientId

/-- The two id maps are inverse to each other. -/
def Inverse (self : SessionManager) : Prop :=
  ∀ mqttId clientId, self.byMqttId.get mqttId = some clientId ↔
    self.byClientMqtt.get clientId = some mqttId

/-- A packet sent to the MQTT id of a connection goes to that connection. -/
def Routes (self : SessionManager) : Prop :=
  ∀ mqttId clientId, self.getMqttId clientId = some mqttId → ∀ channels pkt,
    self.sendByMqttId channels mqttId pkt = self.sendByClientId channels clientId pkt

/-- Neither side of the pair is registered with another partner. -/
def Unpaired (self : SessionManager) (mqttId : String) (clientId : Uuid) : Prop :=
  (∀ other, self.byMqttId.get mqttId = some other → other = clientId) ∧
    ∀ other, self.byClientMqtt.get clientId = some other → other = mqttId

/-- A call that keeps the maps inverse: any but a registration of a pair one side of which is
registered with another partner. -/
def Admits (self : SessionManager) : SessionCall → Prop
  | .registerMqttId mqttId clientId => self.Unpaired mqttId clientId
  | _ => True

variable {self : SessionManager}

private theorem Inverse.routes (inverse : self.Inverse) : self.Routes := by
  intro mqttId clientId known channels pkt
  have forward := (inverse mqttId clientId).mpr known
  simp only [sendByMqttId, forward]

private theorem Inverse.registerMqttId_iff (inverse : self.Inverse) (mqttId : String) (clientId : Uuid) :
    (self.registerMqttId mqttId clientId).Inverse ↔ self.Unpaired mqttId clientId := by
  simp only [Inverse, registerMqttId, DashMap.get_insert]
  constructor
  · intro after
    constructor
    · intro other paired
      by_contra ne
      have back := (inverse mqttId other).mp paired
      have swapped := (after mqttId other).mpr (by rw [if_neg ne]; exact back)
      rw [if_pos rfl] at swapped
      exact ne (Option.some.inj swapped).symm
    · intro other paired
      by_contra ne
      have forward := (inverse other clientId).mpr paired
      have swapped := (after other clientId).mp (by rw [if_neg ne]; exact forward)
      rw [if_pos rfl] at swapped
      exact ne (Option.some.inj swapped).symm
  · rintro ⟨free_id, free_client⟩ m c
    by_cases same_id : m = mqttId <;> by_cases same_client : c = clientId
    · exact iff_of_true (by rw [if_pos same_id, same_client]) (by rw [if_pos same_client, same_id])
    · subst same_id
      rw [if_pos rfl, if_neg same_client]
      refine iff_of_false (fun wrong => same_client (Option.some.inj wrong).symm) fun back => ?_
      exact same_client (free_id c ((inverse m c).mpr back))
    · subst same_client
      rw [if_neg same_id, if_pos rfl]
      refine iff_of_false (fun forward => ?_) fun wrong => same_id (Option.some.inj wrong).symm
      exact same_id (free_client m ((inverse m c).mp forward))
    · rw [if_neg same_id, if_neg same_client]
      exact inverse m c

private theorem Inverse.unregisterMqttId (inverse : self.Inverse) (mqttId : String) :
    (self.unregisterMqttId mqttId).Inverse := by
  unfold SessionManager.unregisterMqttId
  cases paired : self.byMqttId.get mqttId with
  | none => exact inverse
  | some clientId =>
    intro m c
    have back := (inverse mqttId clientId).mp paired
    simp only [DashMap.get_remove]
    by_cases same_id : m = mqttId <;> by_cases same_client : c = clientId
    · simp only [if_pos same_id, if_pos same_client, reduceCtorEq]
    · subst same_id
      rw [if_pos rfl, if_neg same_client]
      refine iff_of_false (fun wrong => by cases wrong) fun other => same_client ?_
      exact (Option.some.inj (((inverse m c).mpr other).symm.trans paired))
    · subst same_client
      rw [if_neg same_id, if_pos rfl]
      refine iff_of_false (fun other => same_id ?_) (fun wrong => by cases wrong)
      exact Option.some.inj (((inverse m c).mp other).symm.trans back)
    · rw [if_neg same_id, if_neg same_client]
      exact inverse m c

private theorem Inverse.call_iff (self : SessionManager) (call : SessionCall) (inverse : self.Inverse) :
    (self.call call).Inverse ↔ self.Admits call := by
  cases call with
  | registerMqttId mqttId clientId => exact inverse.registerMqttId_iff mqttId clientId
  | unregisterMqttId mqttId => exact iff_of_true (inverse.unregisterMqttId mqttId) trivial
  | registerClientId clientId outbound => exact iff_of_true inverse trivial
  | unregisterClientId clientId => exact iff_of_true inverse trivial

private theorem inverse_new : new.Inverse := by
  intro mqttId clientId
  simp only [new, DashMap.get_new, reduceCtorEq]

end SessionManager

/-- Along every sequence of calls the two id maps stay inverse to each other, and packets sent to the
MQTT id of a connection go to that connection, if and only if no registration finds its MQTT id or its
connection registered with another partner. -/
theorem id_maps_inverse_iff (calls : List SessionCall) :
    (∀ before, before <+: calls →
      (before.foldl SessionManager.call .new).Inverse ∧
        (before.foldl SessionManager.call .new).Routes) ↔
      ∀ before call, before ++ [call] <+: calls →
        (before.foldl SessionManager.call .new).Admits call := by
  rw [← foldl_invariant_iff SessionManager.inverse_new SessionManager.Inverse.call_iff]
  constructor
  · exact fun holds before earlier => (holds before earlier).1
  · exact fun holds before earlier => ⟨holds before earlier, (holds before earlier).routes⟩

/-- A client that comes back on a second connection. -/
def takeover : List SessionCall := [.registerMqttId "a" ⟨1⟩, .registerMqttId "a" ⟨2⟩]

/-- The first connection keeps its MQTT id, which leads to the second one. -/
theorem takeover_not_inverse :
    ¬ ∀ calls : List SessionCall, (calls.foldl SessionManager.call .new).Inverse := by
  intro inverse
  have forward := (inverse takeover "a" ⟨1⟩).mpr (by decide)
  exact absurd forward (by decide)

end Aqua
