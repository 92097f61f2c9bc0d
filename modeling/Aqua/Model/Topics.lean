import Aqua.Runtime.DashMap
import Aqua.Model.Packet

/-! # Topics: subscriptions and retained messages

The table of subscriptions, by topic filter, and the store of retained messages, by topic. Both
select by the same relation between filters and topics, segment by segment.
-/

namespace Aqua

open Runtime

/-- `split('/')`. -/
def segments (s : String) : List String := (s.toList.splitOn '/').map String.ofList

/-- The loop over the segments of a filter, on what is left of the filter and of the topic. -/
def matchSegments : List String → List String → Bool
  | [], topic => topic.isEmpty
  | filter :: rest, topic =>
      -- should be last
      if filter = "#" then rest.isEmpty
      else match topic with
        | [] => false
        | segment :: topic =>
            if filter = "+" then matchSegments rest topic
            else if filter = segment then matchSegments rest topic
            else false

/-- The two `is_match` of the source, which are the same code. -/
def isMatch (topicFilter topic : String) : Bool :=
  matchSegments (segments topicFilter) (segments topic)

structure TopicManager where
  topicMap : DashMap String (List (String × SubscribeOption)) := .new

namespace TopicManager

def new : TopicManager := {}

def register (self : TopicManager) (topicFilter clientId : String) (option : SubscribeOption) :
    TopicManager :=
  ⟨self.topicMap.modify topicFilter [] (· ++ [(clientId, option)])⟩

def unregister (self : TopicManager) (topicFilter clientId : String) : TopicManager :=
  match self.topicMap.get topicFilter with
  | some v => ⟨self.topicMap.insert topicFilter (v.filter fun x => x.1 ≠ clientId)⟩
  | none => self

def isMatch (_self : TopicManager) (topicFilter topic : String) : Bool :=
  Aqua.isMatch topicFilter topic

/-- The subscriptions whose filter matches the topic. -/
def subedId (self : TopicManager) (topic : String) : List (String × SubscribeOption) :=
  let topicFilters := self.topicMap.iter.map Prod.fst
  topicFilters.flatMap fun topicFilter =>
    if self.isMatch topicFilter topic then (self.topicMap.get topicFilter).getD [] else []

end TopicManager

structure RetainStore where
  kvs : DashMap String Publish := .new

namespace RetainStore

def new : RetainStore := {}

def updateRetain (self : RetainStore) (topic : String) (pkt : Publish) : RetainStore :=
  ⟨self.kvs.insert topic pkt⟩

def removeRetain (self : RetainStore) (topic : String) : RetainStore := ⟨self.kvs.remove topic⟩

def isMatch (_self : RetainStore) (topicFilter topic : String) : Bool :=
  Aqua.isMatch topicFilter topic

/-- The retained messages whose topic the filter matches. -/
def checkRetain (self : RetainStore) (topicFilter : String) : List Publish :=
  (self.kvs.iter.filter fun entry => self.isMatch topicFilter entry.1).map Prod.snd

end RetainStore

end Aqua
