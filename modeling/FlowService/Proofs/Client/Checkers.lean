import FlowService.Proofs.Client.Roots

/-!
The checkers of one project take turns as long as its files are spelled without links. Behind a link
the project has another root in the queue, and two of its checkers may meet.
-/

namespace FlowService.Traffic

variable {platform : Option String}

variable {client : Client platform} {behaviour : Behaviour} {disk : Disk}

/-- Whatever happens in whichever order, two checkers that are at work on questions of the queue
were asked for different roots. While the marked directories stay the same, these are the roots that
the files have along their spelling; so files of one project whose directories are spelled as the
disk knows them never have two checkers at work. -/
theorem checkers_of_a_root_take_turns {actions : List Action} {traffic : Traffic}
    (ran : (start disk).run? client behaviour actions = some traffic) :
    (∀ one ∈ traffic.asked, ∀ other ∈ traffic.asked, one.ticket ≠ other.ticket →
      traffic.Works one → traffic.Works other → one.root ≠ other.root) ∧
    (KeepMarks disk actions →
      (∀ asking ∈ traffic.asked, asking.root = Session.rootKey disk asking.question.file) ∧
      ∀ one ∈ traffic.asked, ∀ other ∈ traffic.asked, one.ticket ≠ other.ticket →
        Locator.IsCanonical disk (Project.directoryOf one.question.file) →
        Locator.IsCanonical disk (Project.directoryOf other.question.file) →
          (Locator.rootAround disk (Project.directoryOf one.question.file)).sameAs
            (Locator.rootAround disk (Project.directoryOf other.question.file)) →
              ¬(traffic.Works one ∧ traffic.Works other)) := by
  have exclusive := isExclusive_of_run ran
  have apart : ∀ one ∈ traffic.asked, ∀ other ∈ traffic.asked, one.ticket ≠ other.ticket →
      traffic.Works one → traffic.Works other → one.root ≠ other.root := by
    rintro one oneAsked other otherAsked apart ⟨left, leftWorks, leftAlive⟩
      ⟨right, rightWorks, rightAlive⟩
    exact exclusive.root_ne oneAsked otherAsked apart leftWorks rightWorks leftAlive rightAlive
  refine ⟨apart, fun keep => ⟨root_of_run ran keep, ?_⟩⟩
  rintro one oneAsked other otherAsked ticket oneCanonical otherCanonical same ⟨left, right⟩
  refine apart one oneAsked other otherAsked ticket left right ?_
  -- Without links on the way the roots in the queue are those on the disk.
  rw [root_of_run ran keep one oneAsked, root_of_run ran keep other otherAsked]
  exact (Session.rootKey_eq oneCanonical.plain otherCanonical.plain).mpr same

/-- A project with a checker, and a link that leads to its top. -/
def linkedDisk : Disk :=
  ⟨⟨[(["proj"], .directory), (["package.json", "proj"], .file ⟨[], false, false⟩),
    (["a.js", "proj"], .file ⟨[], false, false⟩), (["src", "proj"], .directory),
    (["b.js", "src", "proj"], .file ⟨[], false, false⟩), (["flow"], .file ⟨[], true, true⟩),
    (["link"], .link ⟨true, ["proj"]⟩)]⟩, []⟩

/-- A client that runs the one checker whatever it is asked. -/
def overridden : Client := ⟨⟨true, some ⟨true, ["flow"]⟩, false, "flow-bin", "flow"⟩, ⟨[]⟩, .manual⟩

/-- A checker that waits for a gate before it ends. -/
def waiting : Behaviour := fun _ _ => ⟨[.pause "gate"], .code 0, false⟩

/-- Two questions are asked and their tasks admitted, and the first one is decided on. -/
def hurrying (one other : Path) : List Action :=
  [.ask (.coverage one "") none, .ask (.coverage other "") none, .enter 0, .enter 1,
    .queue (.wake 0), .queue (.start 0), .decide (.queued 0)]

/-- What is to be seen of a client: the files that were asked about with the tickets that were drawn,
and the turns of the processes with how they ended. -/
def sight (traffic : Traffic) : List (Nat × Path) × List (Turn × Option ExitReason) :=
  (traffic.asked.map fun asking => (asking.ticket, asking.question.file),
    traffic.session.processes.map fun entry => (entry.1, entry.2.conversation.ended))

/-- A checker is at work where its process is seen not to be over. -/
theorem works_of_sight {traffic : Traffic} {asking : Asking}
    (seen : (Turn.queued asking.ticket, none) ∈ traffic.sight.2) : traffic.Works asking := by
  obtain ⟨⟨turn, running⟩, member, same⟩ := List.mem_map.mp seen
  obtain ⟨rfl, alive⟩ := Prod.mk.inj same
  exact ⟨running, member, alive⟩

/-- The checkers of two files of the project are both at work, the second one behind the link,
although the disk knows one root for both. -/
theorem checkers_meet_behind_link :
    ∃ traffic, (start linkedDisk).run? overridden waiting
        (hurrying ⟨true, ["a.js", "proj"]⟩ ⟨true, ["b.js", "src", "link"]⟩ ++
          [.queue (.wake 1), .queue (.start 1), .decide (.queued 1)]) = some traffic ∧
      traffic.asked.map (fun asking => (asking.ticket, asking.question.file)) =
        [(0, ⟨true, ["a.js", "proj"]⟩), (1, ⟨true, ["b.js", "src", "link"]⟩)] ∧
      (∀ asking ∈ traffic.asked, traffic.Works asking) ∧
      Locator.rootAround linkedDisk ⟨true, ["proj"]⟩ =
        Locator.rootAround linkedDisk ⟨true, ["src", "link"]⟩ := by
  have view : ((start linkedDisk).run? overridden waiting
      (hurrying ⟨true, ["a.js", "proj"]⟩ ⟨true, ["b.js", "src", "link"]⟩ ++
        [.queue (.wake 1), .queue (.start 1), .decide (.queued 1)])).map sight =
      some ([(0, ⟨true, ["a.js", "proj"]⟩), (1, ⟨true, ["b.js", "src", "link"]⟩)],
        [(.queued 0, none), (.queued 1, none)]) := by decide +kernel
  obtain ⟨traffic, ran, sees⟩ := Option.map_eq_some_iff.mp view
  refine ⟨traffic, ran, congrArg Prod.fst sees, fun asking member => works_of_sight ?_,
    by decide +kernel⟩
  have listed : (asking.ticket, asking.question.file) ∈ traffic.sight.1 := List.mem_map_of_mem member
  rw [sees] at listed ⊢
  simp only [List.mem_cons, List.not_mem_nil, or_false] at listed
  rcases listed with first | second
  · rw [(Prod.mk.inj first).1]
    simp
  · rw [(Prod.mk.inj second).1]
    simp

/-- Spelled without the link the second file has to wait while the first one has its checker. -/
theorem checkers_of_a_root_take_turns_in_project :
    ∃ traffic, (start linkedDisk).run? overridden waiting
        (hurrying ⟨true, ["a.js", "proj"]⟩ ⟨true, ["b.js", "src", "proj"]⟩) = some traffic ∧
      ∃ one ∈ traffic.asked, ∃ other ∈ traffic.asked, one.ticket ≠ other.ticket ∧
        traffic.Works one ∧ ¬traffic.Works other := by
  have view : ((start linkedDisk).run? overridden waiting
      (hurrying ⟨true, ["a.js", "proj"]⟩ ⟨true, ["b.js", "src", "proj"]⟩)).map sight =
      some ([(0, ⟨true, ["a.js", "proj"]⟩), (1, ⟨true, ["b.js", "src", "proj"]⟩)],
        [(.queued 0, none)]) := by decide +kernel
  obtain ⟨traffic, ran, sees⟩ := Option.map_eq_some_iff.mp view
  obtain ⟨one, rest, both, oneSeen, restSeen⟩ := List.map_eq_cons_iff.mp (congrArg Prod.fst sees)
  obtain ⟨other, nobody, rfl, otherSeen, _⟩ := List.map_eq_cons_iff.mp restSeen
  obtain ⟨oneTicket, oneFile⟩ := Prod.mk.inj oneSeen
  obtain ⟨otherTicket, otherFile⟩ := Prod.mk.inj otherSeen
  have oneAsked : one ∈ traffic.asked := by rw [both]; simp
  have otherAsked : other ∈ traffic.asked := by rw [both]; simp
  have apart : one.ticket ≠ other.ticket := by rw [oneTicket, otherTicket]; decide
  have works : traffic.Works one := works_of_sight (by rw [sees, oneTicket]; simp)
  have keep : KeepMarks linkedDisk
      (hurrying ⟨true, ["a.js", "proj"]⟩ ⟨true, ["b.js", "src", "proj"]⟩) := by
    simp [KeepMarks, hurrying, Action.disk?]
  refine ⟨traffic, ran, one, oneAsked, other, otherAsked, apart, works, fun second => ?_⟩
  refine ((checkers_of_a_root_take_turns ran).2 keep).2 one oneAsked other otherAsked apart
    ?_ ?_ ?_ ⟨works, second⟩
  · rw [oneFile]
    exact ⟨⟨true, ["proj"]⟩, by decide +kernel⟩
  · rw [otherFile]
    exact ⟨⟨true, ["src", "proj"]⟩, by decide +kernel⟩
  · rw [oneFile, otherFile]
    decide +kernel

end FlowService.Traffic
