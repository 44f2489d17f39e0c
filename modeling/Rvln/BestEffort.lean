/-
# A server behind two best-effort topics

A topic with a history of depth one: what is published travels in order, any of it may be lost
on the way, and what arrives replaces what still waits for the subscriber.  A server takes the
request that waits on one topic, changes its state and may publish a reply on another.

* `Topic`, `Topic.Sound` : what is on the way, waiting and received is, in this order, a part
  of what was published;
* `Server`, `Server.after`, `Server.replies` : the state of a server and its replies are
  functions of the requests that it took;
* `Link`, `Link.Sound`, `Link.Sound.answer` : a server between a topic of requests and a topic
  of replies; every reply that is heard answers one request, in the state that the requests
  taken before it left.

All lists are newest first.
-/
import Mathlib.Data.List.Basic
import Mathlib.Order.Basic

/-! ## Topics -/

/-- A topic: on the way, waiting for the subscriber, and the history of both ends. -/
structure Topic (α : Type*) where
  flight : List α
  waiting : Option α
  published : List α
  received : List α

namespace Topic

variable {α : Type*}

/-- Nothing was published yet. -/
def new : Topic α := ⟨[], none, [], []⟩

/-- The publisher's side. -/
def publish (t : Topic α) (a : α) : Topic α :=
  { t with flight := a :: t.flight, published := a :: t.published }

/-- The publisher's side, when there may be nothing to publish. -/
def publish? (t : Topic α) : Option α → Topic α
  | none => t
  | some a => t.publish a

/-- What the network may do: lose what is on the way, or deliver the oldest of it. -/
inductive Fate
  | lose (i : ℕ)
  | arrive

/-- The network's side. -/
def travel (t : Topic α) : Fate → Topic α
  | .lose i => { t with flight := t.flight.eraseIdx i }
  | .arrive =>
      match t.flight.getLast? with
      | none => t
      | some a => { t with flight := t.flight.dropLast, waiting := some a }

/-- The subscriber's side. -/
def take (t : Topic α) : Topic α × Option α :=
  match t.waiting with
  | none => (t, none)
  | some a => ({ t with waiting := none, received := a :: t.received }, some a)

/-- Nothing is invented, reordered or delivered twice. -/
def Sound (t : Topic α) : Prop :=
  (t.flight ++ (t.waiting.toList ++ t.received)).Sublist t.published

@[simp] theorem publish_published (t : Topic α) (a : α) :
    (t.publish a).published = a :: t.published := rfl

@[simp] theorem publish_received (t : Topic α) (a : α) : (t.publish a).received = t.received := rfl

theorem publish?_published (t : Topic α) (o : Option α) :
    (t.publish? o).published = o.toList ++ t.published := by
  cases o <;> rfl

theorem publish?_received (t : Topic α) (o : Option α) : (t.publish? o).received = t.received := by
  cases o <;> rfl

@[simp] theorem travel_published (t : Topic α) (fate : Fate) :
    (t.travel fate).published = t.published := by
  unfold travel
  repeat' split
  all_goals rfl

@[simp] theorem travel_received (t : Topic α) (fate : Fate) :
    (t.travel fate).received = t.received := by
  unfold travel
  repeat' split
  all_goals rfl

@[simp] theorem take_published (t : Topic α) : t.take.1.published = t.published := by
  unfold take
  split <;> rfl

/-- What is taken is what waited. -/
theorem take_received (t : Topic α) : t.take.1.received = t.take.2.toList ++ t.received := by
  unfold take
  split <;> rfl

theorem take_eq (t : Topic α) : t.take.2 = t.waiting := by
  unfold take
  split
  · next h => exact h.symm
  · next h => exact h.symm

theorem sound_new : (new : Topic α).Sound := List.Sublist.refl _

section

variable {t : Topic α}

theorem Sound.publish (h : t.Sound) (a : α) : (t.publish a).Sound := h.cons_cons a

theorem Sound.publish? (h : t.Sound) (o : Option α) : (t.publish? o).Sound := by
  cases o with
  | none => exact h
  | some a => exact h.publish a

theorem Sound.travel (h : t.Sound) (fate : Fate) : (t.travel fate).Sound := by
  unfold Topic.travel
  split
  · exact ((List.eraseIdx_sublist _ _).append_right _).trans h
  · split
    · exact h
    · next a hlast =>
        have hsplit : t.flight = t.flight.dropLast ++ [a] :=
          (List.dropLast_append_getLast? a hlast).symm
        rw [Sound, hsplit, List.append_assoc] at h
        -- what waited before is lost
        refine List.Sublist.trans (List.Sublist.append_left ?_ _) h
        exact List.Sublist.append_left (List.sublist_append_right _ _) [a]

theorem Sound.take (h : t.Sound) : t.take.1.Sound := by
  unfold Topic.take
  split
  · exact h
  · next a hwaiting =>
      rw [Sound, hwaiting] at h
      exact h

/-- What was received was published, in this order. -/
theorem Sound.received_sublist (h : t.Sound) : t.received.Sublist t.published :=
  ((List.sublist_append_right _ _).trans (List.sublist_append_right _ _)).trans h

/-- What waits, and what was received before it. -/
theorem Sound.waiting_sublist (h : t.Sound) {a : α} (ha : t.waiting = some a) :
    (a :: t.received).Sublist t.published := by
  rw [Sound, ha] at h
  exact (List.sublist_append_right _ _).trans h

end

end Topic

/-! ## Servers -/

/-- A server: what it does with a request, where the environment may decide some of it. -/
structure Server (State Env Request Reply : Type*) where
  init : State
  serve : State → Env → Request → State × Option Reply

namespace Server

variable {State Env Request Reply : Type*} (server : Server State Env Request Reply)

/-- The state after the requests that were taken. -/
def after : List (Env × Request) → State
  | [] => server.init
  | (env, request) :: older => (server.serve (after older) env request).1

/-- The replies to the requests that were taken. -/
def replies : List (Env × Request) → List Reply
  | [] => []
  | (env, request) :: older =>
      (server.serve (server.after older) env request).2.toList ++ replies older

@[simp] theorem after_cons (env : Env) (request : Request) (older : List (Env × Request)) :
    server.after ((env, request) :: older) = (server.serve (server.after older) env request).1 :=
  rfl

@[simp] theorem replies_cons (env : Env) (request : Request) (older : List (Env × Request)) :
    server.replies ((env, request) :: older) =
      (server.serve (server.after older) env request).2.toList ++ server.replies older := rfl

variable {server}

/-- Every reply was made for one of the requests. -/
theorem mem_replies {served : List (Env × Request)} {reply : Reply} :
    reply ∈ server.replies served ↔ ∃ newer env request older,
      served = newer ++ (env, request) :: older ∧
        (server.serve (server.after older) env request).2 = some reply := by
  induction served with
  | nil => simp [replies]
  | cons entry served ih =>
      obtain ⟨env, request⟩ := entry
      rw [replies_cons, List.mem_append, Option.mem_toList, ih]
      constructor
      · rintro (hreply | ⟨newer, env', request', older, rfl, hreply⟩)
        · exact ⟨[], env, request, served, rfl, hreply⟩
        · exact ⟨(env, request) :: newer, env', request', older, rfl, hreply⟩
      · rintro ⟨newer, env', request', older, hsplit, hreply⟩
        rcases newer with _ | ⟨entry, newer⟩
        · obtain ⟨hentry, rfl⟩ := List.cons.inj hsplit
          obtain ⟨rfl, rfl⟩ := Prod.mk.inj hentry
          exact Or.inl hreply
        · obtain ⟨-, rfl⟩ := List.cons.inj hsplit
          exact Or.inr ⟨newer, env', request', older, rfl, hreply⟩

/-- Replies that carry the name of their request come in the order of the requests. -/
theorem map_replies_sublist {Name : Type*} {nameOf : Reply → Name} {name : Request → Name}
    (hname : ∀ state env request reply, (server.serve state env request).2 = some reply →
      nameOf reply = name request) (served : List (Env × Request)) :
    ((server.replies served).map nameOf).Sublist (served.map fun entry => name entry.2) := by
  induction served with
  | nil => exact List.Sublist.refl _
  | cons entry served ih =>
      obtain ⟨env, request⟩ := entry
      rw [replies_cons, List.map_append, List.map_cons]
      cases hreply : (server.serve (server.after served) env request).2 with
      | none => exact ih.cons _
      | some reply =>
          rw [← hname _ _ _ _ hreply]
          exact ih.cons_cons _

end Server

/-! ## A server between two topics -/

/-- The two topics, the state of the server, and the requests that it took. -/
structure Link (State Env Request Reply : Type*) where
  requests : Topic Request
  state : State
  answers : Topic Reply
  served : List (Env × Request)

namespace Link

variable {State Env Request Reply : Type*}

/-- Nothing was asked yet. -/
def new (server : Server State Env Request Reply) : Link State Env Request Reply :=
  ⟨.new, server.init, .new, []⟩

/-- The server takes the request that waits, if there is one. -/
def serve (server : Server State Env Request Reply) (l : Link State Env Request Reply)
    (env : Env) : Link State Env Request Reply :=
  match l.requests.take with
  | (_, none) => l
  | (requests, some request) =>
      let served := server.serve l.state env request
      { requests := requests
        state := served.1
        answers := l.answers.publish? served.2
        served := (env, request) :: l.served }

/-- The topics are sound, and the server's side is a function of the requests it took. -/
structure Sound (server : Server State Env Request Reply) (l : Link State Env Request Reply) :
    Prop where
  requests : l.requests.Sound
  answers : l.answers.Sound
  state : l.state = server.after l.served
  received : l.requests.received = l.served.map Prod.snd
  published : l.answers.published = server.replies l.served

section

variable {server : Server State Env Request Reply} {l : Link State Env Request Reply}

theorem sound_new : (new server).Sound server where
  requests := Topic.sound_new
  answers := Topic.sound_new
  state := rfl
  received := rfl
  published := rfl

theorem Sound.ask (h : l.Sound server) (request : Request) :
    ({ l with requests := l.requests.publish request } : Link State Env Request Reply).Sound
      server :=
  { h with requests := h.requests.publish request }

theorem Sound.requestTravels (h : l.Sound server) (fate : Topic.Fate) :
    ({ l with requests := l.requests.travel fate } : Link State Env Request Reply).Sound server :=
  { h with
    requests := h.requests.travel fate
    received := (l.requests.travel_received fate).trans h.received }

theorem Sound.replyTravels (h : l.Sound server) (fate : Topic.Fate) :
    ({ l with answers := l.answers.travel fate } : Link State Env Request Reply).Sound server :=
  { h with
    answers := h.answers.travel fate
    published := (l.answers.travel_published fate).trans h.published }

theorem Sound.hear (h : l.Sound server) :
    ({ l with answers := l.answers.take.1 } : Link State Env Request Reply).Sound server :=
  { h with
    answers := h.answers.take
    published := l.answers.take_published.trans h.published }

/-- One request more, in the state that the others left. -/
theorem Sound.serve (h : l.Sound server) (env : Env) : (l.serve server env).Sound server := by
  unfold Link.serve
  split
  · exact h
  · next requests request htake =>
      have hrequests : requests = l.requests.take.1 := by rw [htake]
      have hrequest : l.requests.take.2 = some request := by rw [htake]
      subst hrequests
      refine ⟨h.requests.take, h.answers.publish? _, ?_, ?_, ?_⟩
      · rw [Server.after_cons, ← h.state]
      · rw [Topic.take_received, hrequest, h.received]
        rfl
      · rw [Server.replies_cons, ← h.state, ← h.published]
        exact Topic.publish?_published _ _

/-- What a server leaves of the two topics. -/
theorem serve_frame (server : Server State Env Request Reply) (l : Link State Env Request Reply)
    (env : Env) : l.served <:+ (l.serve server env).served ∧
      (l.serve server env).requests.published = l.requests.published ∧
      (l.serve server env).answers.received = l.answers.received := by
  unfold Link.serve
  split
  · exact ⟨List.suffix_rfl, rfl, rfl⟩
  · next requests request htake =>
      have hrequests : requests = l.requests.take.1 := by rw [htake]
      subst hrequests
      exact ⟨List.suffix_cons _ _, l.requests.take_published, l.answers.publish?_received _⟩

/-- The requests that the server took were asked, in this order. -/
theorem Sound.served_sublist (h : l.Sound server) :
    (l.served.map Prod.snd).Sublist l.requests.published := by
  rw [← h.received]
  exact h.requests.received_sublist

/-- **What is heard answers a request**: it is what the server made of it in the state that the
requests before it left. -/
theorem Sound.answer (h : l.Sound server) {reply : Reply} (hreply : l.answers.take.2 = some reply) :
    ∃ newer env request older, l.served = newer ++ (env, request) :: older ∧
      (server.serve (server.after older) env request).2 = some reply := by
  rw [Topic.take_eq] at hreply
  have hmem : reply ∈ l.answers.published :=
    (h.answers.waiting_sublist hreply).subset List.mem_cons_self
  rw [h.published] at hmem
  exact Server.mem_replies.mp hmem

/-- Replies that carry the name of their request are heard in the order of the requests, and
each at most once: what is heard next comes after what was heard. -/
theorem Sound.answer_newer (h : l.Sound server) {Name : Type*} {nameOf : Reply → Name}
    {name : Request → Name}
    (hname : ∀ state env request reply, (server.serve state env request).2 = some reply →
      nameOf reply = name request)
    {r : Name → Name → Prop} (hasked : (l.requests.published.map name).Pairwise r)
    {reply : Reply} (hreply : l.answers.take.2 = some reply) :
    ∀ older ∈ l.answers.received, r (nameOf reply) (nameOf older) := by
  rw [Topic.take_eq] at hreply
  have hserved : (l.served.map fun entry => name entry.2).Sublist
      (l.requests.published.map name) := by
    have := h.served_sublist.map name
    rwa [List.map_map] at this
  have hheard : ((reply :: l.answers.received).map nameOf).Pairwise r := by
    refine hasked.sublist (List.Sublist.trans ?_ hserved)
    refine List.Sublist.trans ?_ (Server.map_replies_sublist hname l.served)
    rw [← h.published]
    exact (h.answers.waiting_sublist hreply).map nameOf
  intro older holder
  exact List.rel_of_pairwise_cons hheard (List.mem_map_of_mem holder)

end

end Link
