import DocComponents.Proofs.Catalog.Unambiguous
import DocComponents.Proofs.Document.Blind

/-!
# Serving from files that change

An expander that follows its files answers from the catalog it had after its last look at them.
Where no two files define one name, every look leaves exactly the catalog that is filled from the
files as they are, so a request that looks is answered as by an expander that starts then, and one
that does not look as by an expander that started at the last look.
-/

set_option autoImplicit false

namespace DocComponents

open Catalog

/-- Whether a request makes an expander look at the files of its folder. Where no folder can stand,
there is nothing to look at. -/
def looksAt (folder : Path) (event : Disk × Request) : Bool :=
  event.2.followsFiles && (event.1.isFolder folder).isOk

/-- The files at the moments when requests make an expander look at its folder. -/
def looks (folder : Path) (events : List (Disk × Request)) : List Disk :=
  (events.filter (looksAt folder)).map Prod.fst

namespace Expander

/-- The expander with its catalog filled anew from a folder. -/
def filled (expander : Expander) (folder : Path) (disk : Disk) : Expander :=
  { expander with catalog := (expander.catalog.loadDirectory disk (some folder)).catalog }

/-- The expander after requests were served, each with the files as they were then. -/
def serveAll : (events : List (Disk × Request)) → Expander → StateM Trace Expander
  | [], expander => return expander
  | (disk, request) :: later, expander => do
    let (next, _) ← expander.serve disk request
    serveAll later next

variable {expander start : Expander} {folder : Path} {moment disk : Disk} {request : Request}

section serve

theorem serve_of_not_followsFiles (unasked : request.followsFiles = false) (trace : Trace) :
    (expander.serve disk request).run trace =
      ((expander, ((expander.answer request).run trace).1),
        ((expander.answer request).run trace).2) := by
  unfold serve
  rw [unasked]
  rfl

variable (live : expander.settings.liveReload = true) (root : expander.catalog.root = some folder)
  (asked : request.followsFiles = true)

include live root in
private theorem run_sync (trace : Trace) :
    (expander.sync disk).run.run trace =
      ((expander.catalog.refresh disk).result.map fun _ =>
          { expander with catalog := (expander.catalog.refresh disk).catalog },
        { trace with log := trace.log ++ (expander.catalog.refresh disk).log }) := by
  unfold sync
  rw [live, root]
  cases result : (expander.catalog.refresh disk).result with
  | ok changed =>
      simp only [Option.isSome_some, Bool.and_self, if_true, result]
      rfl
  | error fault =>
      simp only [Option.isSome_some, Bool.and_self, if_true, result]
      rfl

include live root asked

theorem serve_of_refreshed {changed : Bool}
    (refreshed : (expander.catalog.refresh disk).result = .ok changed) (trace : Trace) :
    let synced : Expander := { expander with catalog := (expander.catalog.refresh disk).catalog }
    let noted : Trace := { trace with log := trace.log ++ (expander.catalog.refresh disk).log }
    (expander.serve disk request).run trace =
      ((synced, ((synced.answer request).run noted).1), ((synced.answer request).run noted).2) := by
  intro synced noted
  have brought : (expander.sync disk).run.run trace = (.ok synced, noted) := by
    rw [run_sync live root, refreshed]
    rfl
  unfold serve
  rw [asked, if_pos rfl, StateT.run_bind, brought]
  rfl

theorem serve_of_refused {fault : FileFault}
    (refused : (expander.catalog.refresh disk).result = .error fault) (trace : Trace) :
    (expander.serve disk request).run trace =
      ((expander, .error (.file fault)),
        { trace with log := trace.log ++ (expander.catalog.refresh disk).log }) := by
  have brought : (expander.sync disk).run.run trace =
      (.error fault,
        { trace with log := trace.log ++ (expander.catalog.refresh disk).log }) := by
    rw [run_sync live root, refused]
    rfl
  unfold serve
  rw [asked, if_pos rfl, StateT.run_bind, brought]
  rfl

end serve

/-- An expander that came from another one by following its folder up to a moment. -/
structure Follows (expander start : Expander) (folder : Path) (moment : Disk) : Prop where
  unchanged : { start with catalog := expander.catalog } = expander
  knows : expander.catalog.Knows folder (seen? moment folder)

theorem follows_filled (start : Expander) (written : folder.IsWritten) (named : disk.WellNamed)
    (readable : IsReadable folder disk) : (start.filled folder disk).Follows start folder disk where
  unchanged := rfl
  knows := knows_filled start.catalog written named readable

theorem Follows.eq {other : Expander} (follows : expander.Follows start folder disk)
    (followsToo : other.Follows start folder disk) (unambiguous : IsUnambiguous folder disk) :
    expander = other := by
  rw [← follows.unchanged, ← followsToo.unchanged, follows.knows.eq followsToo.knows unambiguous]

theorem Follows.liveReload_eq (follows : expander.Follows start folder moment) :
    expander.settings.liveReload = start.settings.liveReload := by
  rw [← follows.unchanged]

/-- A look leaves the expander that follows the folder up to then, and the answer is its answer. -/
theorem Follows.serve_of_looksAt (follows : expander.Follows start folder moment)
    (live : start.settings.liveReload = true) (looked : looksAt folder (disk, request) = true)
    (named : disk.WellNamed) (readable : IsReadable folder disk)
    (shows : ShowsChanges folder moment disk) (trace : Trace) :
    ∃ (synced : Expander) (noted : Trace), synced.Follows start folder disk ∧
      noted.scopes = trace.scopes ∧
      (expander.serve disk request).run trace =
        ((synced, ((synced.answer request).run noted).1),
          ((synced.answer request).run noted).2) := by
  obtain ⟨asked, stands⟩ := Bool.and_eq_true_iff.mp looked
  have stands : ∃ answer, disk.isFolder folder = .ok answer := by
    dsimp only at stands
    cases found : disk.isFolder folder with
    | ok answer => exact ⟨answer, rfl⟩
    | error fault =>
        rw [found] at stands
        cases stands
  obtain ⟨changed, refreshed⟩ := exists_result_refresh follows.knows.root stands.choose_spec
  have liveNow := follows.liveReload_eq.trans live
  refine ⟨_, _, ⟨?_, ?_⟩, ?_, serve_of_refreshed liveNow follows.knows.root asked refreshed trace⟩
  · rw [← follows.unchanged]
  · exact follows.knows.refresh named readable stands shows.eq_of_same_time
  · rfl

theorem Follows.serve_of_not_looksAt (follows : expander.Follows start folder moment)
    (live : start.settings.liveReload = true) (notLooked : looksAt folder (disk, request) = false)
    (trace : Trace) : ((expander.serve disk request).run trace).1.1 = expander := by
  cases asked : request.followsFiles with
  | false => rw [serve_of_not_followsFiles asked]
  | true =>
      cases stands : disk.isFolder folder with
      | ok answer => simp [looksAt, asked, stands, Except.isOk, Except.toBool] at notLooked
      | error fault =>
          have refused : (expander.catalog.refresh disk).result = .error fault := by
            rw [refresh_of_fault follows.knows.root stands]
          rw [serve_of_refused (follows.liveReload_eq.trans live) follows.knows.root asked refused]

/-- Whatever was asked, an expander follows its folder up to the last look. -/
theorem Follows.serveAll {events : List (Disk × Request)}
    (follows : expander.Follows start folder moment) (live : start.settings.liveReload = true)
    (named : ∀ disk ∈ looks folder events, disk.WellNamed)
    (readable : ∀ disk ∈ looks folder events, IsReadable folder disk)
    (shows : (moment :: looks folder events).IsChain (ShowsChanges folder)) (trace : Trace) :
    ((serveAll events expander).run trace).1.Follows start folder
      ((looks folder events).getLastD moment) := by
  -- The moment of the last look goes on with the expander: a look moves it, nothing else does.
  induction events generalizing expander moment trace with
  | nil => exact follows
  | cons event later ih =>
      obtain ⟨disk, request⟩ := event
      have run : (Expander.serveAll ((disk, request) :: later) expander).run trace =
          (Expander.serveAll later ((expander.serve disk request).run trace).1.1).run
            ((expander.serve disk request).run trace).2 := rfl
      rw [run]
      cases looked : looksAt folder (disk, request) with
      | true =>
          have all : looks folder ((disk, request) :: later) = disk :: looks folder later := by
            rw [looks, List.filter_cons_of_pos looked]
            rfl
          rw [all] at named readable shows ⊢
          obtain ⟨shown, showsLater⟩ := List.isChain_cons_cons.mp shows
          obtain ⟨synced, noted, followsNow, -, served⟩ := follows.serve_of_looksAt live looked
            (named disk List.mem_cons_self) (readable disk List.mem_cons_self) shown trace
          rw [served, List.getLastD_cons]
          exact ih followsNow (fun other member => named other (List.mem_cons_of_mem _ member))
            (fun other member => readable other (List.mem_cons_of_mem _ member)) showsLater _
      | false =>
          have all : looks folder ((disk, request) :: later) = looks folder later := by
            rw [looks, List.filter_cons_of_neg (by simp [looked])]
            rfl
          rw [all] at named readable shows ⊢
          rw [follows.serve_of_not_looksAt live looked]
          exact ih follows named readable shows _

def shown (expander : Expander) (disk : Disk) (request : Request) (trace : Trace) :
    Except Refusal Shown :=
  ((expander.serve disk request).run trace).1.2

private theorem Follows.shown_eq_of_looksAt {other : Expander}
    (follows : expander.Follows start folder moment) (live : start.settings.liveReload = true)
    (followsToo : other.Follows start folder disk) (looked : looksAt folder (disk, request) = true)
    (named : disk.WellNamed) (readable : IsReadable folder disk)
    (unambiguous : IsUnambiguous folder disk) (shows : ShowsChanges folder moment disk)
    {trace since : Trace} (scopes : since.scopes = trace.scopes) :
    expander.shown disk request trace = other.shown disk request since := by
  obtain ⟨synced, noted, followsNow, sameScopes, served⟩ :=
    follows.serve_of_looksAt live looked named readable shows trace
  obtain ⟨fresh, notedToo, freshFollows, sameScopesToo, servedToo⟩ :=
    followsToo.serve_of_looksAt live looked named readable (fun _ _ _ => rfl) since
  -- Both have the one catalog that knows the files, and as many scope tokens were made.
  have agree : synced = fresh := followsNow.eq freshFollows unambiguous
  have tokens : noted.scopes = notedToo.scopes :=
    sameScopes.trans (scopes.symm.trans sameScopesToo.symm)
  rw [shown, shown, served, servedToo, agree]
  exact (fresh.isBlind_answer request noted notedToo tokens).1

private theorem shown_eq_of_fault {other : Expander} (live : expander.settings.liveReload = true)
    (liveToo : other.settings.liveReload = true) (root : expander.catalog.root = some folder)
    (rootToo : other.catalog.root = some folder) (asked : request.followsFiles = true)
    {fault : FileFault} (stands : disk.isFolder folder = .error fault) (trace since : Trace) :
    expander.shown disk request trace = other.shown disk request since := by
  have refused : (expander.catalog.refresh disk).result = .error fault := by
    rw [refresh_of_fault root stands]
  have refusedToo : (other.catalog.refresh disk).result = .error fault := by
    rw [refresh_of_fault rootToo stands]
  rw [shown, shown, serve_of_refused live root asked refused,
    serve_of_refused liveToo rootToo asked refusedToo]

private theorem looks_append (folder : Path) (events : List (Disk × Request)) (disk : Disk)
    (request : Request) :
    looks folder (events ++ [(disk, request)]) =
      looks folder events ++ looks folder [(disk, request)] := by
  rw [looks, List.filter_append, List.map_append]
  rfl

private theorem looks_singleton (folder : Path) (disk : Disk) (request : Request) :
    looks folder [(disk, request)] = if looksAt folder (disk, request) then [disk] else [] := by
  rw [looks, List.filter_cons, List.filter_nil]
  split <;> rfl

private theorem mem_looks_of_looksAt (looked : looksAt folder (disk, request) = true) :
    disk ∈ looks folder [(disk, request)] := by
  rw [looks_singleton, if_pos looked]
  exact List.mem_cons_self

private theorem head?_looks_of_mem (member : moment ∈ looks folder [(disk, request)]) :
    (looks folder [(disk, request)]).head? = some moment := by
  rw [looks_singleton] at member ⊢
  split at member
  · rw [List.mem_singleton.mp member, if_pos ‹_›]
    rfl
  · cases member

private theorem Follows.shown_eq_of_followsFiles (follows : expander.Follows start folder moment)
    (live : start.settings.liveReload = true) (written : folder.IsWritten)
    (asked : request.followsFiles = true)
    (named : ∀ later ∈ looks folder [(disk, request)], later.WellNamed)
    (readable : ∀ later ∈ looks folder [(disk, request)], IsReadable folder later)
    (unambiguous : ∀ later ∈ looks folder [(disk, request)], IsUnambiguous folder later)
    (shows : ∀ later ∈ looks folder [(disk, request)], ShowsChanges folder moment later)
    {trace since : Trace} (scopes : since.scopes = trace.scopes) :
    expander.shown disk request trace = (start.filled folder disk).shown disk request since := by
  cases stands : disk.isFolder folder with
  | ok answer =>
      have looked : looksAt folder (disk, request) = true := by
        rw [looksAt, asked, stands]
        rfl
      have member := mem_looks_of_looksAt looked
      have again : (start.filled folder disk).Follows start folder disk :=
        follows_filled start written (named disk member) (readable disk member)
      exact follows.shown_eq_of_looksAt live again looked (named disk member)
        (readable disk member) (unambiguous disk member) (shows disk member) scopes
  | error fault =>
      -- Neither of the two can look at the folder, and both say so.
      have root : (start.filled folder disk).catalog.root = some folder :=
        congrArg Catalog.root (loadDirectory_of_fault start.catalog stands)
      have liveNow := follows.liveReload_eq.trans live
      have liveToo : (start.filled folder disk).settings.liveReload = true := live
      exact shown_eq_of_fault liveNow liveToo follows.knows.root root asked stands _ _

private theorem Follows.shown_eq_of_not_followsFiles {other : Expander}
    (follows : expander.Follows start folder moment)
    (followsToo : other.Follows start folder moment) (unasked : request.followsFiles = false)
    (unambiguous : IsUnambiguous folder moment) {trace since : Trace}
    (scopes : since.scopes = trace.scopes) :
    expander.shown disk request trace = other.shown moment request since := by
  rw [follows.eq followsToo unambiguous, shown, shown, serve_of_not_followsFiles unasked,
    serve_of_not_followsFiles unasked]
  exact (isBlind_answer _ request _ _ scopes.symm).1

/-- An expander that is filled from its folder and serves requests while the files change answers
the next request as one that is filled anew and has made as many scope tokens: from the files as
they are, if the request follows the files, and otherwise from the files as they were when a request
last did. -/
theorem shown_eq_shown_filled {start : Expander} {folder : Path} {first disk : Disk}
    {history : List (Disk × Request)} {request : Request}
    (live : start.settings.liveReload = true) (written : folder.IsWritten)
    (named : ∀ moment ∈ first :: looks folder (history ++ [(disk, request)]), moment.WellNamed)
    (readable : ∀ moment ∈ first :: looks folder (history ++ [(disk, request)]),
      IsReadable folder moment)
    (unambiguous : ∀ moment ∈ first :: looks folder (history ++ [(disk, request)]),
      IsUnambiguous folder moment)
    (shows : (first :: looks folder (history ++ [(disk, request)])).IsChain (ShowsChanges folder))
    (trace since : Trace) :
    let served := (serveAll history (start.filled folder first)).run trace
    let last := (looks folder history).getLastD first
    since.scopes = served.2.scopes →
      (request.followsFiles = true →
        served.1.shown disk request served.2 =
          (start.filled folder disk).shown disk request since) ∧
      (request.followsFiles = false →
        served.1.shown disk request served.2 =
          (start.filled folder last).shown last request since) := by
  intro served last scopes
  rw [looks_append, ← List.cons_append] at named readable unambiguous shows
  obtain ⟨chain, -, meets⟩ := List.isChain_append.mp shows
  have earlier {moment : Disk} (member : moment ∈ first :: looks folder history) :
      moment ∈ first :: looks folder history ++ looks folder [(disk, request)] :=
    List.mem_append_left _ member
  have now {moment : Disk} (member : moment ∈ looks folder [(disk, request)]) :
      moment ∈ first :: looks folder history ++ looks folder [(disk, request)] :=
    List.mem_append_right _ member
  have lastMember : last ∈ first :: looks folder history := List.getLastD_mem_cons
  have begun : (start.filled folder first).Follows start folder first :=
    follows_filled start written (named first List.mem_cons_self)
      (readable first List.mem_cons_self)
  have follows : served.1.Follows start folder last :=
    begun.serveAll live
      (fun moment member => named moment (earlier (List.mem_cons_of_mem _ member)))
      (fun moment member => readable moment (earlier (List.mem_cons_of_mem _ member))) chain trace
  constructor
  · intro asked
    refine follows.shown_eq_of_followsFiles live written asked
      (fun moment member => named moment (now member))
      (fun moment member => readable moment (now member))
      (fun moment member => unambiguous moment (now member)) (fun moment member => ?_) scopes
    have ends : (first :: looks folder history).getLast? = some last := by
      rw [List.getLast?_cons, ← List.getLastD_eq_getLast?]
    exact meets last ends moment (head?_looks_of_mem member)
  · intro unasked
    have again : (start.filled folder last).Follows start folder last :=
      follows_filled start written (named last (earlier lastMember))
        (readable last (earlier lastMember))
    exact follows.shown_eq_of_not_followsFiles again unasked
      (unambiguous last (earlier lastMember)) scopes

def blank : Expander :=
  { catalog := {}, runtime := .inProcess }

/-- A folder with one component. -/
def noteFirst : Disk :=
  .ofFolder "c".toList [("note.md".toList, "---\nname: note\n---\n<p>one</p>".toList, 1)]

/-- The same folder, once the component was edited. -/
def noteEdited : Disk :=
  .ofFolder "c".toList [("note.md".toList, "---\nname: note\n---\n<p>two</p>".toList, 2)]

theorem shown_eq_shown_filled_note :
    let served := (serveAll [(noteEdited, .inline "::note::".toList)]
      (blank.filled ["c".toList] noteFirst)).run {}
    served.1.shown noteEdited (.document "::note::".toList) served.2 =
      (blank.filled ["c".toList] noteEdited).shown noteEdited (.document "::note::".toList)
        { scopes := 1 } := by
  have scopes : ({ scopes := 1 } : Trace).scopes =
      ((serveAll [(noteEdited, .inline "::note::".toList)]
        (blank.filled ["c".toList] noteFirst)).run {}).2.scopes := by
    decide +kernel
  exact (@shown_eq_shown_filled blank ["c".toList] noteFirst noteEdited
    [(noteEdited, .inline "::note::".toList)] (.document "::note::".toList) rfl
    (by decide +kernel) (by decide +kernel) (by decide +kernel) (by decide +kernel)
    (by decide +kernel) {} { scopes := 1 } scopes).1 rfl

def answerText (answer : Except Refusal Shown) : Option Text :=
  answer.toOption.map Shown.written

def noteText (template : Text) : Text :=
  "<div class=\"md-component\" data-component=\"note\" data-scope=\"mdc-note-000000\">".toList ++
    "<div class=\"mdc-inner\">".toList ++ template ++ "</div></div>".toList

/-- A single invocation is rendered from the catalog as it was before the edit. -/
theorem shown_differs_from_shown_filled :
    let folder := ["c".toList]
    let request : Request := .invocation { name := "note".toList, props := .empty } none {}
    let stale := (blank.filled folder noteFirst).shown noteEdited request {}
    let fresh := (blank.filled folder noteEdited).shown noteEdited request {}
    blank.settings.liveReload = true ∧
      (∀ moment ∈ [noteFirst, noteEdited],
        moment.WellNamed ∧ IsReadable folder moment ∧ IsUnambiguous folder moment) ∧
      ShowsChanges folder noteFirst noteEdited ∧ stale ≠ fresh ∧
      answerText stale = some (noteText "<p>one</p>".toList) ∧
      answerText fresh = some (noteText "<p>two</p>".toList) := by
  intro folder request stale fresh
  have shownStale : answerText stale = some (noteText "<p>one</p>".toList) := by decide +kernel
  have shownFresh : answerText fresh = some (noteText "<p>two</p>".toList) := by decide +kernel
  refine ⟨rfl, by decide +kernel, by decide +kernel, ?_, shownStale, shownFresh⟩
  intro same
  rw [← same, shownStale] at shownFresh
  revert shownFresh
  decide

end Expander

end DocComponents
