import DatePhrase.Service
import Mathlib.Data.List.Induction

/-! Replacing the engine in service while any number of clients use it. A run is one interleaving of
their calls, each of which is a single step, save for a reload: its engine is built in one step and
put in service in another, with other clients' steps in between. Main statements: no engine is lost
or given back twice, a client that asks for the engine in service gets the one put there last, and
an engine that a client holds goes on answering as it did. -/
namespace DatePhrase
open Calendar

/-- A text, the first day of the week asked for, and the instant at which the text is read. -/
structure Question where
  text : String
  preference : WeekStart
  now : Instant

/-- All that an engine says about a text. -/
structure Response where
  date : Answer Instant
  range : Except Fault (Option DateRange)
  hasTime : Answer Bool

def Engine.respond (e : Engine) (q : Question) : Response :=
  ⟨e.date q.text q.preference q.now, e.range q.text q.preference q.now, e.hasTime q.text q.now⟩

namespace Service

/-- A step of a client, with what it is given. -/
inductive Event (Client : Type) where
  | current (c : Client) (given : Installed)
  | replace (c : Client) (e : Engine) (given : Installed)
  /-- The first half of a reload. -/
  | build (c : Client) (reader : PhraseReader) (t : Table) (languages : List String)
  /-- The second half of a reload. -/
  | swap (c : Client) (e : Engine) (given : Installed)
  /-- A question to the `n`-th engine that the client was given, counted from 0. -/
  | ask (c : Client) (n : Nat) (q : Question) (response : Response)

namespace Event
variable {Client : Type}

def client : Event Client → Client
  | current c _ | replace c _ _ | build c _ _ _ | swap c _ _ | ask c _ _ _ => c

/-- The engine put in service and the one given back. -/
def exchange? : Event Client → Option (Engine × Installed)
  | replace _ e given | swap _ e given => some (e, given)
  | current _ _ | build _ _ _ _ | ask _ _ _ _ => none

/-- The engine that the step leaves with the client, to be put in service. -/
def built? : Event Client → Option Engine
  | build _ reader t languages => some (.ofTable reader t languages)
  | current _ _ | replace _ _ _ | swap _ _ _ | ask _ _ _ _ => none

def given? : Event Client → Option Installed
  | current _ given | replace _ _ given | swap _ _ given => some given
  | build _ _ _ _ | ask _ _ _ _ => none

theorem exists_of_built? {event : Event Client} {e : Engine} (built : event.built? = some e) :
    ∃ reader t languages, event = .build event.client reader t languages ∧
      e = .ofTable reader t languages := by
  cases event with
  | build c reader t languages => exact ⟨reader, t, languages, rfl, (Option.some.inj built).symm⟩
  | current | replace | swap | ask => cases built

end Event

/-- The service and its clients. A client that has built an engine is in the middle of a reload. -/
structure World (Client : Type) where
  service : Service
  built : Client → Option Engine
  /-- The engines that a client was given, the first one first. -/
  held : Client → List Installed

variable {Client : Type}

/-- The service before its clients come to it. -/
def World.start (Client : Type) (s : Service) : World Client :=
  ⟨s, fun _ => none, fun _ => []⟩

/-- The exchanges of engines in a run, in their order. -/
def exchanges (trace : List (Event Client)) : List (Engine × Installed) :=
  trace.filterMap Event.exchange?

/-- The engines that completed calls gave back for others. -/
def returned (trace : List (Event Client)) : List Installed :=
  (exchanges trace).map (·.2)

/-- The engines that were put in service, numbered on from `count`. -/
def installed (count : Nat) (trace : List (Event Client)) : List Installed :=
  (((exchanges trace).map (·.1)).zipIdx count).map fun p => ⟨p.2, p.1⟩

section
variable {trace : List (Event Client)} {event : Event Client} {e : Engine} {given : Installed}
variable {count : Nat}

theorem exchanges_snoc_of_none (kept : event.exchange? = none) :
    exchanges (trace ++ [event]) = exchanges trace := by
  simp [exchanges, kept]

theorem exchanges_snoc (exchanged : event.exchange? = some (e, given)) :
    exchanges (trace ++ [event]) = exchanges trace ++ [(e, given)] := by
  simp [exchanges, exchanged]

theorem installed_snoc (exchanged : event.exchange? = some (e, given)) :
    installed count (trace ++ [event]) =
      installed count trace ++ [⟨count + (exchanges trace).length, e⟩] := by
  simp [installed, exchanges_snoc exchanged, List.zipIdx_append, Nat.add_comm]

theorem returned_snoc (exchanged : event.exchange? = some (e, given)) :
    returned (trace ++ [event]) = returned trace ++ [given] := by
  simp [returned, exchanges_snoc exchanged]

theorem serials_installed (count : Nat) (trace : List (Event Client)) :
    (installed count trace).map (·.serial) = List.range' count (exchanges trace).length := by
  have numbers := List.zipIdx_map_snd count ((exchanges trace).map (·.1))
  rw [List.length_map] at numbers
  rw [installed, List.map_map, ← numbers]
  rfl

end

variable [DecidableEq Client]

namespace World

def give (w : World Client) (c : Client) (given : Installed) : World Client :=
  { w with held := Function.update w.held c (w.held c ++ [given]) }

def build (w : World Client) (c : Client) (e : Engine) : World Client :=
  { w with built := Function.update w.built c (some e) }

/-- The client puts an engine in service and is given the one it replaces. -/
def exchange (w : World Client) (c : Client) (e : Engine) : World Client :=
  give ⟨(w.service.replace e).2, Function.update w.built c none, w.held⟩ c
    (w.service.replace e).1

end World

/-- What a client can do: one call at a time, and in the middle of a reload nothing else. -/
inductive Step : World Client → Event Client → World Client → Prop
  | current {w c} (idle : w.built c = none) :
    Step w (.current c w.service.current) (w.give c w.service.current)
  | replace {w c} (idle : w.built c = none) (e : Engine) :
    Step w (.replace c e (w.service.replace e).1) (w.exchange c e)
  | build {w c} (idle : w.built c = none) (reader : PhraseReader) (t : Table)
    (languages : List String) :
    Step w (.build c reader t languages) (w.build c (.ofTable reader t languages))
  | swap {w c e} (ready : w.built c = some e) :
    Step w (.swap c e (w.service.replace e).1) (w.exchange c e)
  | ask {w c n snapshot} (idle : w.built c = none) (holds : (w.held c)[n]? = some snapshot)
    (q : Question) : Step w (.ask c n q (snapshot.engine.respond q)) w

/-- The steps of all clients, in the order in which they happen. -/
inductive Run (w : World Client) : List (Event Client) → World Client → Prop
  | nil : Run w [] w
  | snoc {trace w₁ event w₂} (before : Run w trace w₁) (step : Step w₁ event w₂) :
    Run w (trace ++ [event]) w₂

/-- The engines that a client was given. -/
def handed (c : Client) (trace : List (Event Client)) : List Installed :=
  (trace.filter (·.client = c)).filterMap Event.given?

/-- The latest step of a client. -/
def latest? (c : Client) (trace : List (Event Client)) : Option (Event Client) :=
  (trace.filter (·.client = c)).getLast?

section
variable {s : Service} {w w₁ w₂ : World Client} {trace : List (Event Client)}
variable {event : Event Client} {c : Client}

theorem handed_snoc : handed c (trace ++ [event]) =
    handed c trace ++ if event.client = c then event.given?.toList else [] := by
  by_cases own : event.client = c
  · cases given : event.given? <;> simp [handed, own, given]
  · simp [handed, own]

theorem handed_append {later : List (Event Client)} :
    handed c (trace ++ later) = handed c trace ++ handed c later := by
  simp [handed]

theorem latest?_snoc : latest? c (trace ++ [event]) =
    if event.client = c then some event else latest? c trace := by
  by_cases own : event.client = c
  · simp [latest?, own]
  · simp [latest?, own]

/-- A step leaves the service alone, or it gives back the engine in service for another one. -/
theorem Step.service (step : Step w₁ event w₂) :
    (event.exchange? = none ∧ w₂.service = w₁.service) ∨
      ∃ e, event.exchange? = some (e, w₁.service.current) ∧
        w₂.service = (w₁.service.replace e).2 := by
  cases step with
  | current idle => exact .inl ⟨rfl, rfl⟩
  | replace idle e => exact .inr ⟨e, rfl, rfl⟩
  | build idle reader t languages => exact .inl ⟨rfl, rfl⟩
  | swap ready => exact .inr ⟨_, rfl, rfl⟩
  | ask idle holds q => exact .inl ⟨rfl, rfl⟩

/-- Clients keep what they hold. -/
theorem Step.held (step : Step w₁ event w₂) (c : Client) :
    w₂.held c = w₁.held c ++ if event.client = c then event.given?.toList else [] := by
  have updated (d : Client) (given : Installed) :
      Function.update w₁.held d (w₁.held d ++ [given]) c =
        w₁.held c ++ if d = c then [given] else [] := by
    by_cases same : d = c
    · subst same
      simp
    · simp [Function.update_of_ne (Ne.symm same), same]
  cases step with
  | current idle => exact updated _ _
  | replace idle e => exact updated _ _
  | build idle reader t languages => simp [World.build, Event.given?]
  | swap ready => exact updated _ _
  | ask idle holds q => simp [Event.given?]

/-- A built engine is with its client until the client's next step. -/
theorem Step.built (step : Step w₁ event w₂) (c : Client) :
    w₂.built c = if event.client = c then event.built? else w₁.built c := by
  have updated (d : Client) (e : Option Engine) :
      Function.update w₁.built d e c = if d = c then e else w₁.built c := by
    simp only [Function.update_apply, eq_comm]
  have unchanged {d : Client} (idle : w₁.built d = none) :
      w₁.built c = if d = c then none else w₁.built c := by
    split
    · rename_i same
      rw [← same, idle]
    · rfl
  cases step with
  | current idle => exact unchanged idle
  | replace idle e => exact updated _ _
  | build idle reader t languages => exact updated _ _
  | swap ready => exact updated _ _
  | ask idle holds q => exact unchanged idle

/-- What the steps so far make of the service and of its clients. -/
structure Accounts (s : Service) (trace : List (Event Client)) (w : World Client) : Prop where
  conserved : returned trace ++ [w.service.current] = s.current :: installed s.count trace
  count : w.service.count = s.count + (exchanges trace).length
  held : ∀ c, w.held c = handed c trace
  built : ∀ c, w.built c = (latest? c trace).bind Event.built?

theorem Accounts.start (s : Service) : Accounts s [] (.start Client s) where
  conserved := rfl
  count := rfl
  held _ := rfl
  built _ := rfl

theorem Accounts.snoc (accounts : Accounts s trace w₁) (step : Step w₁ event w₂) :
    Accounts s (trace ++ [event]) w₂ where
  conserved := by
    obtain ⟨kept, same⟩ | ⟨e, exchanged, next⟩ := step.service
    · rw [returned, installed, exchanges_snoc_of_none kept, same]
      exact accounts.conserved
    · rw [returned_snoc exchanged, installed_snoc exchanged, accounts.conserved, next,
        List.cons_append, ← accounts.count]
      rfl
  count := by
    obtain ⟨kept, same⟩ | ⟨e, exchanged, next⟩ := step.service
    · rw [exchanges_snoc_of_none kept, same, accounts.count]
    · rw [exchanges_snoc exchanged, next, List.length_append, ← Nat.add_assoc, ← accounts.count]
      rfl
  held c := by
    rw [step.held c, accounts.held c, handed_snoc]
  built c := by
    rw [step.built c, accounts.built c, latest?_snoc]
    split <;> rfl

theorem Run.accounts (run : Run (.start Client s) trace w) : Accounts s trace w := by
  induction run with
  | nil => exact .start s
  | snoc _ step ih => exact ih.snoc step

theorem Run.snoc_iff :
    Run w (trace ++ [event]) w₂ ↔ ∃ w₁, Run w trace w₁ ∧ Step w₁ event w₂ := by
  constructor
  · intro run
    generalize whole : trace ++ [event] = steps at run
    cases run with
    | nil => simp at whole
    | snoc before step =>
      obtain ⟨rfl, same⟩ := List.append_inj' whole rfl
      obtain rfl := List.singleton_inj.1 same
      exact ⟨_, before, step⟩
  · rintro ⟨w₁, before, step⟩
    exact .snoc before step

/-- Each step of a run is taken where the steps before it have led. -/
theorem Run.step_of_append {after : List (Event Client)}
    (run : Run w (trace ++ event :: after) w₂) : ∃ w₁ w', Run w trace w₁ ∧ Step w₁ event w' := by
  induction after using List.reverseRecOn generalizing w₂ with
  | nil =>
    obtain ⟨w₁, before, step⟩ := Run.snoc_iff.1 run
    exact ⟨w₁, w₂, before, step⟩
  | append_singleton after last ih =>
    rw [← List.cons_append, ← List.append_assoc] at run
    obtain ⟨w₁, before, -⟩ := Run.snoc_iff.1 run
    exact ih before

theorem client_of_latest? (latest : latest? c trace = some event) : event.client = c := by
  have member := List.mem_of_getLast? latest
  simpa using (List.mem_filter.1 member).2

/-- The second half of a reload does what the whole reload would do at that moment, for the languages
that its client has built an engine for just before. -/
theorem reload_of_swap {e : Engine} {given : Installed} {after : List (Event Client)}
    (run : Run (.start Client s) (trace ++ .swap c e given :: after) w) :
    ∃ reader t languages w₁ w₂, latest? c trace = some (.build c reader t languages) ∧
      Run (.start Client s) trace w₁ ∧
      Run (.start Client s) (trace ++ [.swap c e given]) w₂ ∧
      w₁.service.reload reader t languages = (given, w₂.service) := by
  obtain ⟨w₁, w', before, step⟩ := run.step_of_append
  cases step with
  | swap ready =>
    have built := before.accounts.built c
    rw [ready] at built
    obtain ⟨event, latest, kept⟩ := Option.bind_eq_some_iff.1 built.symm
    obtain ⟨reader, t, languages, own, rfl⟩ := Event.exists_of_built? kept
    rw [client_of_latest? latest] at own
    exact ⟨reader, t, languages, w₁, _, own ▸ latest, before, before.snoc (.swap ready), rfl⟩

/-- No exchange loses or duplicates an engine. Whatever the clients do and in whatever order, the
engines given back and then the one in service are the first one and then those put in service, in
this order and all different. Whoever swaps in an engine reloads the service for the languages that
the engine was built for. Who asks for the engine in service is given the one put there last, and an
engine once given answers all later questions as it would have answered then. -/
theorem conserved_of_run (s : Service) (trace : List (Event Client)) (w : World Client)
    (run : Run (.start Client s) trace w) :
    returned trace ++ [w.service.current] = s.current :: installed s.count trace ∧
    ((s.current :: installed s.count trace).map (·.serial)).Nodup ∧
    (∀ before c e given after, trace = before ++ .swap c e given :: after →
      ∃ reader t languages w₁ w₂, latest? c before = some (.build c reader t languages) ∧
        Run (.start Client s) before w₁ ∧
        Run (.start Client s) (before ++ [.swap c e given]) w₂ ∧
        w₁.service.reload reader t languages = (given, w₂.service)) ∧
    (∀ before c given after, trace = before ++ .current c given :: after →
      given = (installed s.count before).getLast?.getD s.current) ∧
    ∀ before c n snapshot between q response after, (handed c before)[n]? = some snapshot →
      trace = before ++ between ++ .ask c n q response :: after →
      response = snapshot.engine.respond q := by
  refine ⟨run.accounts.conserved, ?_, ?_, ?_, ?_⟩
  · rw [List.map_cons, serials_installed, List.nodup_cons]
    have serial_lt := s.serial_lt
    refine ⟨fun again => ?_, List.nodup_range'⟩
    have := (List.mem_range'_1.1 again).1
    omega
  · rintro before c e given after rfl
    exact reload_of_swap run
  · rintro before c given after rfl
    obtain ⟨w₁, w', run', step⟩ := run.step_of_append
    cases step
    have last := congrArg List.getLast? run'.accounts.conserved
    rw [List.getLast?_concat, List.getLast?_cons] at last
    exact Option.some.inj last
  · rintro before c n snapshot between q response after holds rfl
    obtain ⟨w₁, w', run', step⟩ := run.step_of_append
    cases step with
    | ask idle held q =>
      obtain ⟨inside, -⟩ := List.getElem?_eq_some_iff.1 holds
      rw [run'.accounts.held c, handed_append, List.getElem?_append_left inside, holds] at held
      rw [Option.some.inj held]

/-- One client builds an engine while another one puts its own in service. The first half of the
reload comes before that exchange, the second half after it. -/
theorem conserved_of_run_overlapping :
    let s := Service.start (.ofPool .empty [] [])
    let other : Engine := .ofPool .empty ["fr"] []
    let rebuilt : Engine := .ofTable .silent .empty ["de"]
    let q : Question := ⟨"morgen", .localeDefault, ⟨⟨20742, by decide, by decide⟩, .midnight⟩⟩
    let opening : List (Event Bool) :=
      [.build true .silent .empty ["de"], .current false s.current]
    let exchanging : List (Event Bool) :=
      [.replace false other s.current, .swap true rebuilt ⟨1, other⟩]
    let trace (response : Response) := opening ++ exchanging ++
      [.current false ⟨2, rebuilt⟩, .ask false 0 q response]
    ∃ response w, Run (.start Bool s) (trace response) w ∧
      returned (trace response) ++ [w.service.current] =
        s.current :: installed s.count (trace response) ∧
      ((s.current :: installed s.count (trace response)).map (·.serial)).Nodup ∧
      (∃ w₁ w₂ : World Bool, Run (.start Bool s) (opening ++ exchanging.take 1) w₁ ∧
        Run (.start Bool s) (opening ++ exchanging) w₂ ∧
        w₁.service.reload .silent .empty ["de"] = (⟨1, other⟩, w₂.service)) ∧
      ⟨2, rebuilt⟩ = (installed s.count (opening ++ exchanging)).getLast?.getD s.current ∧
      (handed false opening)[0]? = some s.current ∧ response = s.current.engine.respond q := by
  intro s other rebuilt q opening exchanging trace
  have built := Run.snoc .nil
    (Step.build (w := World.start Bool s) (c := true) rfl .silent .empty ["de"])
  have first := built.snoc (.current (c := false) rfl)
  have replaced := first.snoc (.replace (c := false) rfl other)
  have swapped := replaced.snoc (.swap (c := true) rfl)
  have second := swapped.snoc (.current (c := false) rfl)
  have asked := second.snoc (.ask (c := false) (n := 0) rfl rfl q)
  obtain ⟨response, w, run⟩ : ∃ response w, Run (.start Bool s) (trace response) w := ⟨_, _, asked⟩
  have holds : (handed false opening)[0]? = some s.current := rfl
  obtain ⟨conserved, distinct, swaps, currents, asks⟩ := conserved_of_run s (trace response) w run
  obtain ⟨reader, t, languages, w₁, w₂, last, before, after, reloads⟩ :=
    swaps (opening ++ exchanging.take 1) true rebuilt ⟨1, other⟩ _ rfl
  have own : latest? true (opening ++ exchanging.take 1) =
    some (.build true .silent .empty ["de"]) := rfl
  rw [own] at last
  cases last
  have latest := currents (opening ++ exchanging) false _ _ rfl
  have kept := asks opening false 0 _ (exchanging ++ [.current false ⟨2, rebuilt⟩]) q _ [] holds rfl
  exact ⟨response, w, run, conserved, distinct, ⟨w₁, w₂, before, after, reloads⟩, latest, holds, kept⟩

end

end Service

end DatePhrase
