import Aqua.Proofs.HubView

/-! # Steps of the hub for workers and channels

An operation of a worker keeps a note, spreads it, delivers a copy or loses it. A connection hands out what is
due to it while the channel has room, and skips it otherwise; its other packets fill the mailbox up. A writer
collects what waits, or closes the mailbox.
-/

namespace Aqua

open Runtime

namespace Broker

variable {self : Broker} {workers : List Worker} {place : ℕ} {worker : Worker} {draws : Draws}
  {offers : Uuid → List ControlPacket}

/-- Where a worker is replaced, the hub changes by what the worker holds. -/
theorem hub_set (there : workers[place]? = some worker) (next : Worker) :
    (self.hub (workers.set place next) offers).posted + worker.posted =
        (self.hub workers offers).posted + next.posted ∧
      (self.hub (workers.set place next) offers).kept + worker.kept = (self.hub workers offers).kept + next.kept ∧
      (self.hub (workers.set place next) offers).copies + worker.copies =
        (self.hub workers offers).copies + next.copies :=
  ⟨sum_map_set _ there next, sum_map_set _ there next, sum_map_set _ there next⟩

theorem letter_retained (self : Broker) (p : Publish) :
    (fun topic => ((self.retainFor (.deliver p)).retain.kvs.get topic).map Publish.letter) =
      rules.retain (fun topic => (self.retain.kvs.get topic).map Publish.letter) p.letter := by
  unfold retainFor Hub.Rules.retain
  dsimp only
  by_cases lasting : p.retain.value = true
  · have own : rules.lasting p.letter = true := lasting
    rw [if_pos lasting, if_pos own]
    funext topic
    simp only [RetainStore.updateRetain, DashMap.get_insert, Function.update_apply]
    split
    · next same => exact (if_pos same).symm
    · next other => exact (if_neg other).symm
  · have own : ¬ rules.lasting p.letter = true := lasting
    rw [if_neg lasting, if_neg own]

/-- A task is retained. -/
theorem spawned_hub {task : Task} (there : workers[place]? = some (.spawned task)) :
    Hub.Serves rules [] (self.hub workers offers)
      ((self.retainFor task).hub (workers.set place (.retained task)) offers) := by
  obtain ⟨posted, kept, copies⟩ := @hub_set self workers place _ offers there (.retained task)
  have unsent : (self.hub (workers.set place (.retained task)) offers).copies = (self.hub workers offers).copies :=
    add_right_cancel copies
  cases task with
  | deliver p =>
    have waits : (self.hub workers offers).posted =
        p.letter ::ₘ (self.hub (workers.set place (.retained (.deliver p))) offers).posted := by
      rw [← Multiset.singleton_add, add_comm]
      exact (posted.trans (add_zero _)).symm
    have letter := self.letter_retained p
    obtain ⟨retain, same⟩ := self.retainFor_eq (.deliver p)
    rw [same] at letter ⊢
    refine .internal (.keep waits) rfl (Hub.ext rfl rfl letter rfl rfl ?_ unsent rfl)
    rw [← Multiset.singleton_add, add_comm]
    exact (add_zero _).symm.trans kept
  | release publish packetId =>
    have unposted : (self.hub (workers.set place (.retained (.release publish packetId))) offers).posted =
        (self.hub workers offers).posted := add_right_cancel posted
    have unkept : (self.hub (workers.set place (.retained (.release publish packetId))) offers).kept =
        (self.hub workers offers).kept := add_right_cancel kept
    exact .nil (Hub.ext rfl rfl rfl rfl unposted unkept unsent rfl)

/-- A task has looked its subscribers up. -/
theorem retained_hub {task : Task} (there : workers[place]? = some (.retained task)) (draws : Draws) :
    Hub.Serves rules [] (self.hub workers offers)
      (self.hub (workers.set place (.sending (self.sendsOf draws task))) offers) := by
  obtain ⟨posted, kept, copies⟩ := @hub_set self workers place _ offers there (.sending (self.sendsOf draws task))
  have unposted : (self.hub (workers.set place (.sending (self.sendsOf draws task))) offers).posted =
      (self.hub workers offers).posted := add_right_cancel posted
  have waits : (self.hub workers offers).kept =
      task.message.letter ::ₘ (self.hub (workers.set place (.sending (self.sendsOf draws task))) offers).kept := by
    rw [← Multiset.singleton_add, add_comm]
    exact (kept.trans (add_zero _)).symm
  have spreads : Worker.copies (.sending (self.sendsOf draws task)) =
      rules.spread self.topics.subscriptions task.message.letter := by
    have sends := congrArg (List.map fun send : String × Publish => (send.1, send.2.letter))
      (self.sendsOf_unnumbered draws task)
    rw [TopicManager.spread_subscriptions, Worker.copies]
    rw [Sends.unnumbered, Task.copies, List.map_map, List.map_map] at sends
    exact congrArg _ sends
  refine .internal (.spread waits) rfl (Hub.ext rfl rfl rfl rfl unposted rfl ?_ rfl)
  rw [spreads] at copies
  exact (add_zero _).symm.trans copies

theorem mailboxOf_room (channel : OutboundChannel) (offers : List ControlPacket) :
    (mailboxOf channel offers).room rules.capacity = channel.room := rfl

/-- A packet is offered to a channel that has room for it. -/
theorem mailboxOf_offer {channel : OutboundChannel} {packet : ControlPacket} (room : channel.room ≠ 0)
    (offers : List ControlPacket) :
    mailboxOf (channel.offer packet) offers = { mailboxOf channel offers with
      notes := (mailboxOf channel offers).notes ++ packet.letter?.toList
      waiting := (mailboxOf channel offers).waiting + 1 } := by
  obtain ⟨fits, pushed⟩ := @Channel.offer_eq_push _ _ _ packet room
  have accepted := @Channel.accepted_push _ _ _ packet fits
  rw [pushed, mailboxOf, accepted, List.filterMap_append, List.filterMap_cons, List.filterMap_nil]
  simp only [mailboxOf, Channel.push, List.length_append, List.length_singleton]
  cases packet.letter? <;> rfl

/-- A copy is sent. -/
theorem sending_hub {send : String × Publish} {rest : Sends}
    (there : workers[place]? = some (.sending (send :: rest))) (connected : self.session.Connected) :
    Hub.Serves rules [] (self.hub workers offers)
      ((self.sendTo send.1 send.2).hub (workers.set place (.sending rest)) offers) := by
  obtain ⟨posted, kept, copies⟩ := @hub_set self workers place _ offers there (.sending rest)
  have unposted : (self.hub (workers.set place (.sending rest)) offers).posted = (self.hub workers offers).posted :=
    add_right_cancel posted
  have unkept : (self.hub (workers.set place (.sending rest)) offers).kept = (self.hub workers offers).kept :=
    add_right_cancel kept
  have waits : (self.hub workers offers).copies =
      (send.1, send.2.letter.unnumbered) ::ₘ (self.hub (workers.set place (.sending rest)) offers).copies := by
    have first : Worker.copies (.sending (send :: rest)) =
        (send.1, send.2.letter.unnumbered) ::ₘ Worker.copies (.sending rest) := rfl
    rw [first, ← Multiset.singleton_add, ← add_assoc] at copies
    rw [← Multiset.singleton_add, add_comm]
    exact (add_right_cancel copies).symm
  have channels := self.sendTo_channels connected send.1 send.2
  by_cases reaches : ∃ clientId,
      self.session.byMqttId.get send.1 = some clientId ∧ (self.channels clientId).room ≠ 0
  · obtain ⟨clientId, known, room⟩ := reaches
    refine .internal (.deliver waits known room) rfl (Hub.ext rfl rfl rfl rfl unposted unkept rfl ?_)
    funext other
    simp only [Hub.withMailbox, hub]
    rw [channels, known, Function.update_apply]
    by_cases own : other = clientId
    · subst own
      rw [if_pos rfl, if_pos rfl, mailboxOf_offer room]
      rfl
    · rw [if_neg own, if_neg (fun same => own (Option.some.inj same).symm)]
  · have stuck : ∀ clientId, self.session.byMqttId.get send.1 = some clientId →
        (self.channels clientId).room = 0 :=
      fun clientId known => not_not.mp fun room => reaches ⟨clientId, known, room⟩
    refine .internal (.lose waits stuck) rfl (Hub.ext rfl rfl rfl rfl unposted unkept rfl ?_)
    funext other
    change mailboxOf ((self.sendTo send.1 send.2).channels other) _ = mailboxOf (self.channels other) _
    rw [channels]
    split
    · next known => rw [Channel.offer_of_room_eq_zero (stuck other known)]
    · rfl

/-- An operation of a worker. -/
theorem work_hub (there : workers[place]? = some worker) (connected : self.session.Connected) (draws : Draws) :
    Hub.Serves rules [] (self.hub workers offers)
      ((self.work draws worker).1.hub (workers.set place (self.work draws worker).2) offers) := by
  cases worker with
  | spawned task => exact spawned_hub there
  | retained task => exact retained_hub there draws
  | sending sends =>
    cases sends with
    | nil =>
      have same : workers.set place (.sending []) = workers := by
        obtain ⟨inside, here⟩ := List.getElem?_eq_some_iff.mp there
        rw [← here]
        exact List.set_getElem_self inside
      refine .nil ?_
      change self.hub (workers.set place (.sending [])) offers = _
      rw [same]
    | cons send rest => exact sending_hub there connected

/-- The hub behind the change of one channel and of what is offered to it. -/
theorem hub_onChannel (self : Broker) (clientId : Uuid) (channel : OutboundChannel) (packets : List ControlPacket) :
    (self.onChannel clientId fun _ => channel).hub workers (Function.update offers clientId packets) =
      (self.hub workers offers).withMailbox clientId (mailboxOf channel packets) := by
  refine Hub.ext rfl rfl rfl rfl rfl rfl rfl ?_
  funext other
  simp only [hub, Hub.withMailbox, channels_onChannel, Function.update_apply]
  split <;> rfl

theorem hub_offers (self : Broker) (clientId : Uuid) (packets : List ControlPacket) :
    self.hub workers (Function.update offers clientId packets) =
      (self.hub workers offers).withMailbox clientId (mailboxOf (self.channels clientId) packets) := by
  rw [← hub_onChannel, onChannel, Function.update_eq_self]

/-- A connection offers a packet to its channel. -/
theorem offer_hub (self : Broker) {clientId : Uuid} {packet : ControlPacket} {rest : List ControlPacket}
    (next : offers clientId = packet :: rest) :
    Hub.Serves rules (packet.fills clientId) (self.hub workers offers)
      ((self.hub workers offers).withMailbox clientId (mailboxOf ((self.channels clientId).offer packet) rest)) := by
  have before : (self.hub workers offers).mailboxes clientId =
      { mailboxOf (self.channels clientId) rest with
        due := packet.letter?.toList ++ (mailboxOf (self.channels clientId) rest).due } := by
    simp only [hub, mailboxOf, next, List.filterMap_cons]
    cases packet.letter? <;> rfl
  have free : ((self.hub workers offers).mailboxes clientId).room rules.capacity =
      (self.channels clientId).room := mailboxOf_room _ _
  cases message : packet.letter? with
  | none =>
    have fills : packet.fills clientId = [.fill clientId] := if_pos message
    rw [message, Option.toList_none, List.nil_append] at before
    rw [fills]
    by_cases room : (self.channels clientId).room = 0
    · refine .request (.reject (free.trans room)) ?_
      rw [Channel.offer_of_room_eq_zero room]
      have same : mailboxOf (self.channels clientId) rest = (self.hub workers offers).mailboxes clientId :=
        before.symm
      rw [same, Hub.withMailbox_self]
    · refine .request (.fill (free.trans_ne room)) ?_
      rw [mailboxOf_offer room, message, before, Option.toList_none, List.append_nil]
  | some note =>
    have fills : packet.fills clientId = [] := if_neg (by rw [message]; exact Option.some_ne_none note)
    rw [message, Option.toList_some, List.singleton_append] at before
    have due := congrArg Mailbox.due before
    rw [fills]
    by_cases room : (self.channels clientId).room = 0
    · refine .internal (.skip due (free.trans room)) rfl ?_
      rw [Channel.offer_of_room_eq_zero room, before]
    · refine .internal (.hand due (free.trans_ne room)) rfl ?_
      rw [mailboxOf_offer room, message, before]
      rfl

/-- A connection offers all its packets. -/
theorem offers_hub (packets : List ControlPacket) {self : Broker} {clientId : Uuid}
    (next : offers clientId = packets) :
    Hub.Serves rules (packets.flatMap (ControlPacket.fills clientId)) (self.hub workers offers)
      ((self.hub workers offers).withMailbox clientId
        (mailboxOf (packets.foldl Channel.offer (self.channels clientId)) [])) := by
  induction packets generalizing self offers with
  | nil =>
    have same : mailboxOf (self.channels clientId) [] = (self.hub workers offers).mailboxes clientId := by
      rw [← next]
      rfl
    rw [List.foldl_nil, same, Hub.withMailbox_self]
    exact .nil rfl
  | cons packet rest ih =>
    rw [List.flatMap_cons]
    refine (offer_hub self next).trans ?_
    have later := @ih (Function.update offers clientId rest)
      (self.onChannel clientId fun _ => (self.channels clientId).offer packet) (Function.update_self ..)
    rwa [hub_onChannel, Hub.withMailbox_withMailbox, channels_onChannel, if_pos rfl] at later

/-- One channel changes, and the packets that are offered to it next stay. -/
theorem hub_changed (self : Broker) (clientId : Uuid) (change : OutboundChannel → OutboundChannel) :
    (self.onChannel clientId change).hub workers offers =
      (self.hub workers offers).withMailbox clientId
        (mailboxOf (change (self.channels clientId)) (offers clientId)) := by
  have changed := @hub_onChannel workers offers self clientId (change (self.channels clientId)) (offers clientId)
  rwa [Function.update_eq_self] at changed

/-- The writer takes a packet from its channel. -/
theorem take_hub (self : Broker) (clientId : Uuid) :
    Hub.Serves rules [.collect clientId] (self.hub workers offers)
      ((self.onChannel clientId Channel.take).hub workers offers) := by
  refine .request (.collect clientId) ?_
  rw [hub_changed, mailboxOf, Channel.accepted_take]
  congr 2
  exact List.length_drop

/-- The writer is gone. -/
theorem close_hub (self : Broker) (clientId : Uuid) :
    Hub.Serves rules [.close clientId] (self.hub workers offers)
      ((self.onChannel clientId Channel.close).hub workers offers) := by
  refine .request (.close clientId) ?_
  rw [hub_changed]
  rfl

end Broker

end Aqua
