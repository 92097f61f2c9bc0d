import Aqua.Runtime.Runs
import Mathlib.Data.Multiset.Filter

/-! # A publish/subscribe hub

What a broker is for, without packets, connections or tables. A note that is posted is kept for its topic if
it is to last, and then spread: every subscription of that time that matches its topic makes a copy, which is
delivered to whoever goes by the name of the subscription by then. Nothing is lost but copies for a name that
nobody goes by, and what finds a mailbox without room: one that is closed, or in which as much waits as it can
hold. Posting, keeping, spreading and delivering are steps that happen in any order, but a mailbox is filled
with other things, collected from and closed only where this is asked for.
-/

open Runtime

/-- What reaches an address: the notes it has got, those it is about to get for a request of its own, and how
much waits in its mailbox to be collected. -/
structure Mailbox (Note : Type) where
  due : List Note := []
  notes : List Note := []
  waiting : ℕ := 0
  closed : Bool := false

namespace Mailbox

variable {Note : Type}

def room (self : Mailbox Note) (capacity : ℕ) : ℕ := if self.closed then 0 else capacity - self.waiting

/-- A note is put into the mailbox. -/
def put (self : Mailbox Note) (note : Note) : Mailbox Note :=
  { self with notes := self.notes ++ [note], waiting := self.waiting + 1 }

end Mailbox

/-- What a hub has to know of the notes and filters it works on. -/
structure Hub.Rules (Filter Topic Choice Key Note : Type) where
  -- how much a mailbox holds
  capacity : ℕ
  matched : Filter → Topic → Prop
  topic : Note → Topic
  lasting : Note → Bool
  -- the copy for a subscription
  copy : Note → Choice → Note
  -- what a recall gives of a note that is retained, and the key it is held under again
  recalled : Note → Note
  key : Note → Option Key

/-- The state of a hub. -/
@[ext]
structure Hub (Address Name Filter Topic Choice Key Note : Type) where
  members : Name → Option Address
  subscriptions : Multiset (Filter × Name × Choice)
  retained : Topic → Option Note
  -- the notes that are not posted before they are released
  held : Key → Option Note
  posted : Multiset Note
  kept : Multiset Note
  copies : Multiset (Name × Note)
  mailboxes : Address → Mailbox Note

namespace Hub

/-- What is asked of a hub. -/
inductive Request (Address Name Filter Topic Choice Key Note : Type) where
  | attach (address : Address)
  | fill (address : Address)
  | collect (address : Address)
  | close (address : Address)
  | join (name : Name) (address : Address)
  | leave (name : Name)
  | enroll (name : Name) (filters : List (Filter × Choice))
  | recall (address : Address) (filters : List Filter)
  | post (note : Note)
  | forget (topic : Topic)
  | hold (key : Key) (note : Note)
  | release (key : Key)
  | discard (key : Key)

/-- What happens in a hub. -/
inductive Event (Address Name Filter Topic Choice Key Note : Type) where
  | request (request : Request Address Name Filter Topic Choice Key Note)
  | keep (note : Note)
  | spread (note : Note)
  | deliver (name : Name) (note : Note)
  | lose (name : Name) (note : Note)
  | hand (address : Address)
  | skip (address : Address)

variable {Address Name Filter Topic Choice Key Note : Type}

/-- The request, if the event is one. -/
def Event.request? : Event Address Name Filter Topic Choice Key Note →
    Option (Request Address Name Filter Topic Choice Key Note)
  | .request own => some own
  | _ => none

/-- A hub that nobody has asked for anything. -/
def new : Hub Address Name Filter Topic Choice Key Note where
  members := fun _ => none
  subscriptions := 0
  retained := fun _ => none
  held := fun _ => none
  posted := 0
  kept := 0
  copies := 0
  mailboxes := fun _ => {}

variable [DecidableEq Address]

/-- The mailbox of one address changes. -/
def withMailbox (self : Hub Address Name Filter Topic Choice Key Note) (address : Address)
    (mailbox : Mailbox Note) : Hub Address Name Filter Topic Choice Key Note :=
  { self with mailboxes := Function.update self.mailboxes address mailbox }

theorem withMailbox_self (self : Hub Address Name Filter Topic Choice Key Note) (address : Address) :
    self.withMailbox address (self.mailboxes address) = self := by
  rw [withMailbox, Function.update_eq_self]

theorem withMailbox_withMailbox (self : Hub Address Name Filter Topic Choice Key Note) (address : Address)
    (first second : Mailbox Note) :
    (self.withMailbox address first).withMailbox address second = self.withMailbox address second := by
  simp only [withMailbox, Function.update_idem]

variable [DecidableEq Name] [DecidableEq Topic] [DecidableEq Key]

variable (rules : Rules Filter Topic Choice Key Note)

/-- The store behind a note. -/
def Rules.retain (retained : Topic → Option Note) (note : Note) : Topic → Option Note :=
  if rules.lasting note then Function.update retained (rules.topic note) (some note) else retained

open Classical in
/-- The copies of a note. -/
noncomputable def Rules.spread (subscriptions : Multiset (Filter × Name × Choice)) (note : Note) :
    Multiset (Name × Note) :=
  (subscriptions.filter fun sub => rules.matched sub.1 (rules.topic note)).map fun sub =>
    (sub.2.1, rules.copy note sub.2.2)

/-- A recall finds every retained note that matches one of the filters, once. -/
structure Rules.Recalls (retained : Topic → Option Note) (filters : List Filter) (found : List Note) : Prop where
  once : found.Nodup
  every : ∀ note, note ∈ found ↔
    ∃ topic, retained topic = some note ∧ ∃ filter ∈ filters, rules.matched filter topic

/-- Notes are held again: one of them under each key they have. -/
def Rules.Holds (held : Key → Option Note) (found : List Note) (next : Key → Option Note) : Prop :=
  ∀ key, next key = held key ∧ (∀ note ∈ found, rules.key note ≠ some key) ∨
    ∃ note ∈ found, rules.key note = some key ∧ next key = some note

/-- The steps of a hub. -/
inductive Step (self : Hub Address Name Filter Topic Choice Key Note) :
    Event Address Name Filter Topic Choice Key Note → Hub Address Name Filter Topic Choice Key Note → Prop
  | attach (address : Address) : Step self (.request (.attach address)) (self.withMailbox address {})
  | fill {address : Address} (room : (self.mailboxes address).room rules.capacity ≠ 0) :
      Step self (.request (.fill address)) (self.withMailbox address
        { self.mailboxes address with waiting := (self.mailboxes address).waiting + 1 })
  | reject {address : Address} (full : (self.mailboxes address).room rules.capacity = 0) :
      Step self (.request (.fill address)) self
  | collect (address : Address) :
      Step self (.request (.collect address)) (self.withMailbox address
        { self.mailboxes address with waiting := (self.mailboxes address).waiting - 1 })
  | close (address : Address) :
      Step self (.request (.close address))
        (self.withMailbox address { self.mailboxes address with closed := true })
  | join (name : Name) (address : Address) :
      Step self (.request (.join name address))
        { self with members := Function.update self.members name (some address) }
  | leave (name : Name) :
      Step self (.request (.leave name)) { self with members := Function.update self.members name none }
  | enroll (name : Name) (filters : List (Filter × Choice)) :
      Step self (.request (.enroll name filters)) { self with
        subscriptions := self.subscriptions + ↑(filters.map fun filter => (filter.1, name, filter.2)) }
  | recall (address : Address) {filters : List Filter} {found : List Note} {held : Key → Option Note}
      (recalls : rules.Recalls self.retained filters found) (holds : rules.Holds self.held found held) :
      Step self (.request (.recall address filters))
        { self.withMailbox address { self.mailboxes address with
            due := (self.mailboxes address).due ++ found.map rules.recalled } with held }
  | post (note : Note) : Step self (.request (.post note)) { self with posted := note ::ₘ self.posted }
  | forget (topic : Topic) :
      Step self (.request (.forget topic)) { self with retained := Function.update self.retained topic none }
  | hold (key : Key) (note : Note) :
      Step self (.request (.hold key note)) { self with held := Function.update self.held key (some note) }
  | release {key : Key} {note : Note} (waits : self.held key = some note) :
      Step self (.request (.release key)) { self with
        held := Function.update self.held key none
        retained := rules.retain self.retained note
        kept := note ::ₘ self.kept }
  | idle {key : Key} (unknown : self.held key = none) : Step self (.request (.release key)) self
  | discard (key : Key) :
      Step self (.request (.discard key)) { self with held := Function.update self.held key none }
  | keep {note : Note} {rest : Multiset Note} (waits : self.posted = note ::ₘ rest) :
      Step self (.keep note) { self with
        posted := rest
        retained := rules.retain self.retained note
        kept := note ::ₘ self.kept }
  | spread {note : Note} {rest : Multiset Note} (waits : self.kept = note ::ₘ rest) :
      Step self (.spread note) { self with
        kept := rest
        copies := self.copies + rules.spread self.subscriptions note }
  | deliver {name : Name} {note : Note} {rest : Multiset (Name × Note)} {address : Address}
      (waits : self.copies = (name, note) ::ₘ rest) (known : self.members name = some address)
      (room : (self.mailboxes address).room rules.capacity ≠ 0) :
      Step self (.deliver name note)
        { self.withMailbox address ((self.mailboxes address).put note) with copies := rest }
  | lose {name : Name} {note : Note} {rest : Multiset (Name × Note)}
      (waits : self.copies = (name, note) ::ₘ rest)
      (stuck : ∀ address, self.members name = some address →
        (self.mailboxes address).room rules.capacity = 0) :
      Step self (.lose name note) { self with copies := rest }
  | hand {address : Address} {note : Note} {rest : List Note}
      (first : (self.mailboxes address).due = note :: rest)
      (room : (self.mailboxes address).room rules.capacity ≠ 0) :
      Step self (.hand address)
        (self.withMailbox address { (self.mailboxes address).put note with due := rest })
  | skip {address : Address} {note : Note} {rest : List Note}
      (first : (self.mailboxes address).due = note :: rest)
      (full : (self.mailboxes address).room rules.capacity = 0) :
      Step self (.skip address) (self.withMailbox address { self.mailboxes address with due := rest })

/-- The requests lead the hub to another state, with any steps of its own in between. -/
def Serves (requests : List (Request Address Name Filter Topic Choice Key Note))
    (self next : Hub Address Name Filter Topic Choice Key Note) : Prop :=
  ∃ events, Runs (Step rules) self events next ∧ events.filterMap Event.request? = requests

namespace Serves

variable {rules} {self middle next : Hub Address Name Filter Topic Choice Key Note}
  {requests later : List (Request Address Name Filter Topic Choice Key Note)}

theorem nil (same : next = self) : Serves rules [] self next := ⟨[], runs_nil_iff.mpr same, rfl⟩

theorem request {request : Request Address Name Filter Topic Choice Key Note}
    (step : Step rules self (.request request) middle) (same : next = middle) : Serves rules [request] self next :=
  ⟨[.request request], same ▸ .single step, rfl⟩

theorem internal {event : Event Address Name Filter Topic Choice Key Note} (step : Step rules self event middle)
    (silent : event.request? = none) (same : next = middle) : Serves rules [] self next :=
  ⟨[event], same ▸ .single step, by rw [List.filterMap_cons, silent]; rfl⟩

theorem trans (first : Serves rules requests self middle) (second : Serves rules later middle next) :
    Serves rules (requests ++ later) self next := by
  obtain ⟨events, run, own⟩ := first
  obtain ⟨events', further, own'⟩ := second
  exact ⟨events ++ events', run.append further, by rw [List.filterMap_append, own, own']⟩

end Serves

end Hub
