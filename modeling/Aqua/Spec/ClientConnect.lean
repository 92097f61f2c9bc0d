import Aqua.Spec.Client

/-! # The CONNECT of a 3.1.1 client

What a client of version 3.1.1 asks for, how that is laid out on the wire, and the packet the broker has to
see. There are no properties anywhere.
-/

namespace Aqua

open Wire

structure Will where
  qos : QoS
  retain : Bool
  topic : TopicName
  message : WillPayload
deriving DecidableEq

structure ClientConnect where
  keepAlive : KeepAlive
  clientId : ClientId
  cleanSession : Bool
  will : Option Will := none
  userName : Option UserName := none
  password : Option Password := none
deriving DecidableEq

namespace ClientConnect

/-- Will flag, will QoS and will RETAIN. -/
def willBits : Option (QoS × Bool) → UInt8
  | some (qos, retain) =>
      let retainBit : UInt8 := if retain then 0x20 else 0x00
      let qosBits : UInt8 := qos.bits <<< 3
      0x04 ||| qosBits ||| retainBit
  | none => 0x00

/-- The flags byte, by what is there. -/
def flagBits (userName password : Bool) (will : Option (QoS × Bool)) (cleanSession : Bool) : UInt8 :=
  let userNameBit : UInt8 := if userName then 0x80 else 0x00
  let passwordBit : UInt8 := if password then 0x40 else 0x00
  let cleanBit : UInt8 := if cleanSession then 0x02 else 0x00
  userNameBit ||| passwordBit ||| willBits will ||| cleanBit

def flags (c : ClientConnect) : UInt8 :=
  flagBits c.userName.isSome c.password.isSome (c.will.map fun will => (will.qos, will.retain))
    c.cleanSession

/-- Protocol name, level, flags and keep-alive. -/
def header (c : ClientConnect) : Bytes :=
  putTruncated (stringBytes "MQTT") ++ [0x04] ++ [c.flags] ++ be16Bytes c.keepAlive.value

/-- Client identifier, will topic and will message, user name and password. -/
def payload (c : ClientConnect) : Bytes :=
  putTruncated (stringBytes c.clientId.value) ++
  optionBytes c.will (fun will =>
    putTruncated (stringBytes will.topic.value) ++ putTruncated will.message.value) ++
  optionBytes c.userName (fun name => putTruncated (stringBytes name.value)) ++
  optionBytes c.password (fun password => putTruncated password.value)

def body (c : ClientConnect) : Bytes := c.header ++ c.payload

def wire (c : ClientConnect) : Bytes := 0x10 :: encodeVariableBytes c.body.length ++ c.body

/-- Strings and binary data have at most 65535 bytes. -/
structure Fits (c : ClientConnect) : Prop where
  clientId : (stringBytes c.clientId.value).length < 2 ^ 16
  topic : ∀ will ∈ c.will, (stringBytes will.topic.value).length < 2 ^ 16
  message : ∀ will ∈ c.will, will.message.value.length < 2 ^ 16
  userName : ∀ name ∈ c.userName, (stringBytes name.value).length < 2 ^ 16
  password : ∀ password ∈ c.password, password.value.length < 2 ^ 16

/-- The flags as the broker keeps them. -/
def connectFlags (c : ClientConnect) : ConnectFlags where
  userNameFlag := c.userName.isSome
  passwordFlag := c.password.isSome
  willRetain := (c.will.map Will.retain).getD false
  willQos := (c.will.map Will.qos).getD .qos0
  willFlag := c.will.isSome
  cleanStart := c.cleanSession

/-- The packet the broker has to see. -/
def decoded (c : ClientConnect) : Connect where
  protocolName := ⟨"MQTT"⟩
  protocolVer := ⟨4⟩
  connectFlags := c.connectFlags
  keepalive := c.keepAlive
  clientId := c.clientId
  username := c.userName
  password := c.password
  willTopic := c.will.map Will.topic
  willPayload := c.will.map Will.message

end ClientConnect

end Aqua
