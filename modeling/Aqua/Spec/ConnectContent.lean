import Aqua.Spec.ClientConnect

/-! # The CONNECT of version 5

The properties of a CONNECT and of a will, in the order the client writes them, and the whole packet around
them. A property other than a user property stands at most once in its list.
-/

namespace Aqua

open Wire

/-- The byte of a property with two values. -/
def flagByte (value : Bool) : UInt8 := if value then 0x01 else 0x00

/-- The length of a property list and the properties. -/
def propertyBytes {π : Type} (wire : π → Bytes) (properties : List π) : Bytes :=
  encodeVariableBytes (properties.flatMap wire).length ++ properties.flatMap wire

/-- User properties as a packet keeps them: nothing if there are none. -/
def collected {α : Type} : List α → Option (List α)
  | [] => none
  | list => some list

inductive ConnectProperty where
  | sessionExpiryInterval (interval : SessionExpiryInterval)
  | receiveMaximum (maximum : ReceiveMaximum)
  | maximumPacketSize (size : MaximumPacketSize)
  | topicAliasMaximum (maximum : TopicAliasMaximum)
  | requestResponseInformation (information : RequestResponseInformation)
  | requestProblemInformation (information : RequestProblemInformation)
  | userProperty (property : UserProperty)
  | authenticationMethod (method : AuthenticationMethod)
  | authenticationData (data : AuthenticationData)
deriving DecidableEq

namespace ConnectProperty

def id : ConnectProperty → UInt8
  | sessionExpiryInterval _ => 0x11
  | receiveMaximum _ => 0x21
  | maximumPacketSize _ => 0x27
  | topicAliasMaximum _ => 0x22
  | requestResponseInformation _ => 0x19
  | requestProblemInformation _ => 0x17
  | userProperty _ => 0x26
  | authenticationMethod _ => 0x15
  | authenticationData _ => 0x16

def value : ConnectProperty → Bytes
  | sessionExpiryInterval interval => be32Bytes interval.value
  | receiveMaximum maximum => be16Bytes maximum.value
  | maximumPacketSize size => be32Bytes size.value
  | topicAliasMaximum maximum => be16Bytes maximum.value
  | requestResponseInformation information => [flagByte information.value]
  | requestProblemInformation information => [flagByte information.value]
  | userProperty property =>
      putTruncated (stringBytes property.key) ++ putTruncated (stringBytes property.value)
  | authenticationMethod method => putTruncated (stringBytes method.value)
  | authenticationData data => putTruncated data.value

def wire (p : ConnectProperty) : Bytes := p.id :: p.value

/-- Strings and binary data have at most 65535 bytes. -/
def Fits : ConnectProperty → Prop
  | userProperty property =>
      (stringBytes property.key).length < 2 ^ 16 ∧ (stringBytes property.value).length < 2 ^ 16
  | authenticationMethod method => (stringBytes method.value).length < 2 ^ 16
  | authenticationData data => data.value.length < 2 ^ 16
  | _ => True

instance : DecidablePred Fits
  | userProperty _ => inferInstanceAs (Decidable (_ ∧ _))
  | authenticationMethod _ => inferInstanceAs (Decidable (_ < _))
  | authenticationData _ => inferInstanceAs (Decidable (_ < _))
  | sessionExpiryInterval _ | receiveMaximum _ | maximumPacketSize _ | topicAliasMaximum _
  | requestResponseInformation _ | requestProblemInformation _ => inferInstanceAs (Decidable True)

/-- A receive maximum and a maximum packet size are not zero. -/
def Allowed : ConnectProperty → Prop
  | receiveMaximum maximum => maximum.value ≠ 0
  | maximumPacketSize size => size.value ≠ 0
  | _ => True

instance : DecidablePred Allowed
  | receiveMaximum _ => inferInstanceAs (Decidable (_ ≠ _))
  | maximumPacketSize _ => inferInstanceAs (Decidable (_ ≠ _))
  | sessionExpiryInterval _ | topicAliasMaximum _ | requestResponseInformation _ | requestProblemInformation _
  | userProperty _ | authenticationMethod _ | authenticationData _ => inferInstanceAs (Decidable True)

/-- Two properties that may stand in one list: only a user property is repeated. -/
def Compatible (p q : ConnectProperty) : Prop := p.id = q.id → p.id = 0x26

instance : DecidableRel Compatible := fun _ _ => inferInstanceAs (Decidable (_ → _))

/-- Authentication data stand behind an authentication method. -/
def MethodFirst (properties : List ConnectProperty) : Prop :=
  ∀ front data rest, properties = front ++ authenticationData data :: rest →
    ∃ method, authenticationMethod method ∈ front

section Values

def sessionExpiryInterval? : ConnectProperty → Option SessionExpiryInterval
  | sessionExpiryInterval interval => some interval
  | _ => none

def receiveMaximum? : ConnectProperty → Option ReceiveMaximum
  | receiveMaximum maximum => some maximum
  | _ => none

def maximumPacketSize? : ConnectProperty → Option MaximumPacketSize
  | maximumPacketSize size => some size
  | _ => none

def topicAliasMaximum? : ConnectProperty → Option TopicAliasMaximum
  | topicAliasMaximum maximum => some maximum
  | _ => none

def requestResponseInformation? : ConnectProperty → Option RequestResponseInformation
  | requestResponseInformation information => some information
  | _ => none

def requestProblemInformation? : ConnectProperty → Option RequestProblemInformation
  | requestProblemInformation information => some information
  | _ => none

def userProperty? : ConnectProperty → Option UserProperty
  | userProperty property => some property
  | _ => none

def authenticationMethod? : ConnectProperty → Option AuthenticationMethod
  | authenticationMethod method => some method
  | _ => none

def authenticationData? : ConnectProperty → Option AuthenticationData
  | authenticationData data => some data
  | _ => none

end Values

/-- The property set that a list of properties stands for. -/
def collect (properties : List ConnectProperty) : ConnectProperties where
  sessionExpiryInterval := properties.findSome? sessionExpiryInterval?
  receiveMaximum := properties.findSome? receiveMaximum?
  maximumPacketSize := properties.findSome? maximumPacketSize?
  topicAliasMaximum := properties.findSome? topicAliasMaximum?
  requestResponseInformation := properties.findSome? requestResponseInformation?
  requestProblemInformation := properties.findSome? requestProblemInformation?
  userProperties := collected (properties.filterMap userProperty?)
  authenticationMethod := properties.findSome? authenticationMethod?
  authenticationData := properties.findSome? authenticationData?

end ConnectProperty

inductive WillProperty where
  | willDelayInterval (interval : WillDelayInterval)
  | payloadFormatIndicator (indicator : PayloadFormatIndicator)
  | messageExpiryInterval (interval : MessageExpiryInterval)
  | contentType (content : ContentType)
  | responseTopic (topic : ResponseTopic)
  | correlationData (data : CorrelationData)
  | userProperty (property : UserProperty)
deriving DecidableEq

namespace WillProperty

def id : WillProperty → UInt8
  | willDelayInterval _ => 0x18
  | payloadFormatIndicator _ => 0x01
  | messageExpiryInterval _ => 0x02
  | contentType _ => 0x03
  | responseTopic _ => 0x08
  | correlationData _ => 0x09
  | userProperty _ => 0x26

def value : WillProperty → Bytes
  | willDelayInterval interval => be32Bytes interval.value
  | payloadFormatIndicator indicator => [indicator.toByte]
  | messageExpiryInterval interval => be32Bytes interval.value
  | contentType content => putTruncated (stringBytes content.value)
  | responseTopic topic => putTruncated (stringBytes topic.value)
  | correlationData data => putTruncated data.value
  | userProperty property =>
      putTruncated (stringBytes property.key) ++ putTruncated (stringBytes property.value)

def wire (p : WillProperty) : Bytes := p.id :: p.value

/-- Strings and binary data have at most 65535 bytes. -/
def Fits : WillProperty → Prop
  | contentType content => (stringBytes content.value).length < 2 ^ 16
  | responseTopic topic => (stringBytes topic.value).length < 2 ^ 16
  | correlationData data => data.value.length < 2 ^ 16
  | userProperty property =>
      (stringBytes property.key).length < 2 ^ 16 ∧ (stringBytes property.value).length < 2 ^ 16
  | _ => True

instance : DecidablePred Fits
  | contentType _ => inferInstanceAs (Decidable (_ < _))
  | responseTopic _ => inferInstanceAs (Decidable (_ < _))
  | correlationData _ => inferInstanceAs (Decidable (_ < _))
  | userProperty _ => inferInstanceAs (Decidable (_ ∧ _))
  | willDelayInterval _ | payloadFormatIndicator _ | messageExpiryInterval _ => inferInstanceAs (Decidable True)

/-- Two properties that may stand in one list: only a user property is repeated. -/
def Compatible (p q : WillProperty) : Prop := p.id = q.id → p.id = 0x26

instance : DecidableRel Compatible := fun _ _ => inferInstanceAs (Decidable (_ → _))

section Values

def willDelayInterval? : WillProperty → Option WillDelayInterval
  | willDelayInterval interval => some interval
  | _ => none

def payloadFormatIndicator? : WillProperty → Option PayloadFormatIndicator
  | payloadFormatIndicator indicator => some indicator
  | _ => none

def messageExpiryInterval? : WillProperty → Option MessageExpiryInterval
  | messageExpiryInterval interval => some interval
  | _ => none

def contentType? : WillProperty → Option ContentType
  | contentType content => some content
  | _ => none

def responseTopic? : WillProperty → Option ResponseTopic
  | responseTopic topic => some topic
  | _ => none

def correlationData? : WillProperty → Option CorrelationData
  | correlationData data => some data
  | _ => none

def userProperty? : WillProperty → Option UserProperty
  | userProperty property => some property
  | _ => none

end Values

/-- The property set that a list of will properties stands for. -/
def collect (properties : List WillProperty) : WillProperties where
  willDelayInterval := properties.findSome? willDelayInterval?
  payloadFormatIndicator := properties.findSome? payloadFormatIndicator?
  messageExpiryInterval := properties.findSome? messageExpiryInterval?
  contentType := properties.findSome? contentType?
  responseTopic := properties.findSome? responseTopic?
  correlationData := properties.findSome? correlationData?
  userProperties := collected (properties.filterMap userProperty?)

end WillProperty

/-- Protocol name, level, flags and keep-alive. -/
def connectFront (name : ProtocolName) (level flags : UInt8) (keepAlive : KeepAlive) : Bytes :=
  putTruncated (stringBytes name.value) ++ [level, flags] ++ be16Bytes keepAlive.value

structure WillContent extends Will where
  properties : List WillProperty := []
deriving DecidableEq

structure ConnectContent where
  keepAlive : KeepAlive
  cleanStart : Bool
  properties : List ConnectProperty := []
  clientId : ClientId
  will : Option WillContent := none
  userName : Option UserName := none
  password : Option Password := none
deriving DecidableEq

namespace ConnectContent

def flags (c : ConnectContent) : UInt8 :=
  ClientConnect.flagBits c.userName.isSome c.password.isSome (c.will.map fun will => (will.qos, will.retain))
    c.cleanStart

def header (c : ConnectContent) : Bytes :=
  connectFront ⟨"MQTT"⟩ 0x05 c.flags c.keepAlive ++ propertyBytes ConnectProperty.wire c.properties

/-- Will properties, will topic and will message. -/
def willBytes (will : WillContent) : Bytes :=
  propertyBytes WillProperty.wire will.properties ++ putTruncated (stringBytes will.topic.value) ++
    putTruncated will.message.value

/-- Client identifier, will, user name and password. -/
def payload (c : ConnectContent) : Bytes :=
  putTruncated (stringBytes c.clientId.value) ++ optionBytes c.will willBytes ++
  optionBytes c.userName (fun name => putTruncated (stringBytes name.value)) ++
  optionBytes c.password (fun password => putTruncated password.value)

/-- What a client may send: every field fits behind its length, single properties are single, and
authentication data follow the method. -/
structure Legal (c : ConnectContent) : Prop where
  properties : ∀ p ∈ c.properties, p.Fits ∧ p.Allowed
  single : c.properties.Pairwise ConnectProperty.Compatible
  method : ConnectProperty.MethodFirst c.properties
  clientId : (stringBytes c.clientId.value).length < 2 ^ 16
  willProperties : ∀ will ∈ c.will, ∀ p ∈ will.properties, p.Fits
  willSingle : ∀ will ∈ c.will, will.properties.Pairwise WillProperty.Compatible
  topic : ∀ will ∈ c.will, (stringBytes will.topic.value).length < 2 ^ 16
  message : ∀ will ∈ c.will, will.message.value.length < 2 ^ 16
  userName : ∀ name ∈ c.userName, (stringBytes name.value).length < 2 ^ 16
  password : ∀ password ∈ c.password, password.value.length < 2 ^ 16
  total : c.header.length + c.payload.length < 2 ^ 28

/-- The flags as the broker keeps them. -/
def connectFlags (c : ConnectContent) : ConnectFlags where
  userNameFlag := c.userName.isSome
  passwordFlag := c.password.isSome
  willRetain := (c.will.map (·.retain)).getD false
  willQos := (c.will.map (·.qos)).getD .qos0
  willFlag := c.will.isSome
  cleanStart := c.cleanStart

/-- The packet the broker has to see. -/
def decoded (c : ConnectContent) : Connect where
  protocolName := ⟨"MQTT"⟩
  protocolVer := ⟨5⟩
  connectFlags := c.connectFlags
  keepalive := c.keepAlive
  properties := ConnectProperty.collect c.properties
  clientId := c.clientId
  username := c.userName
  password := c.password
  willProperties := ((c.will.map (·.properties)).map WillProperty.collect).getD {}
  willTopic := c.will.map (·.topic)
  willPayload := c.will.map (·.message)

end ConnectContent

end Aqua
