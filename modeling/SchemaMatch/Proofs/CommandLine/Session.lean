import SchemaMatch.Proofs.CommandLine.Input
import SchemaMatch.Proofs.Recommendations.Emission
import SchemaMatch.Proofs.Settings.Overrides

/-!
# Runs write all or nothing

Once its arguments and its log filter are understood, a run goes through its stages in order: the
settings are loaded and then overridden, the payload is read, the provider and the matcher are made
(`Prepares`), and the recommendations are computed.

* If a stage fails, the run stops there (`Stops`), and the error of this stage is all it leaves.
* If none fails (`Finishes`), the text of the recommendations goes to where it is to go. It is the
  text that the matcher makes of the text of the payload (`Finishes.recommendText_run`).

There is no third case (`stops_or_finishes`). Two things that are not stages can keep a run from
writing: a log filter that cannot be used, which is found out before the first stage, and a file
that cannot be created, which is found out after the last. What is written to takes the text as a
whole (`receive_of_takes`), or the run ends with the error of writing, after a beginning of the text
(`exists_receive_of_not_takes`).

Settings are checked when they are overridden, so that the matcher can always be made
(`exists_ofSettings`).
-/

namespace SchemaMatch

namespace CommandLine

/-- Whether a run writes nothing, neither to the standard output nor to a file. -/
def Outcome.WritesNothing (o : Outcome) : Prop :=
  o.standardOutput = [] ∧ o.written = none

/-- Whether some bytes are all that a run leaves at its output, and it writes to nothing else. -/
def Outcome.Leaves (o : Outcome) (output : Option String) (bytes : List UInt8) : Prop :=
  match output with
  | none => o.standardOutput = bytes ∧ o.written = none
  | some path => o.standardOutput = [] ∧ o.written = some (path, bytes)

variable (s : Surroundings) (a : Arguments)

/-- The settings of a run before they are overridden. -/
def loaded : Except Error Settings :=
  match a.config with
  | some path => Settings.ofFile path (s.content path)
  | none => .ok .standard

theorem settings_eq : settings s a = (loaded s a).bind (·.overridden a.overrides) := by
  rw [settings, loaded]
  cases a.config <;> rfl

/-- The matcher can be made with any provider. -/
theorem exists_ofSettings {m : Type → Type} {d : Settings} (h : settings s a = .ok d)
    (provider : Provider m) :
    ∃ matcher, Matcher.ofSettings provider d.matching = .ok matcher := by
  have hvalid : d.matching.validate = .ok () := by
    rw [settings_eq] at h
    cases hloaded : loaded s a with
    | error e => simp [hloaded, Except.bind] at h
    | ok c => exact Settings.validate_of_overridden (by simpa [hloaded, Except.bind] using h)
  exact Matcher.exists_ofSettings hvalid provider

/-! ## Stages -/

section Preparation

variable {m : Type → Type} [Monad m] (transport : Transport m)

/-- What the stages before the recommendations come to: the words of the error of the first that
    fails, or a matcher and a payload. -/
inductive Prepares : Except String (Matcher m × Payload) → Prop
  | unloaded {e : Error} : loaded s a = .error e → Prepares (.error e.message)
  | notOverridden {c : Settings} {e : Error} :
    loaded s a = .ok c → c.overridden a.overrides = .error e → Prepares (.error e.message)
  | unread {c d : Settings} {message : String} :
    loaded s a = .ok c → c.overridden a.overrides = .ok d → payload s a = .error message →
    Prepares (.error message)
  | noProvider {c d : Settings} {r : Payload} {e : Error} :
    loaded s a = .ok c → c.overridden a.overrides = .ok d → payload s a = .ok r →
    d.provider.build transport = .error e → Prepares (.error e.message)
  | noMatcher {c d : Settings} {r : Payload} {provider : Provider m} {e : Error} :
    loaded s a = .ok c → c.overridden a.overrides = .ok d → payload s a = .ok r →
    d.provider.build transport = .ok provider →
    Matcher.ofSettings provider d.matching = .error e → Prepares (.error e.message)
  | ready {c d : Settings} {r : Payload} {provider : Provider m} {matcher : Matcher m} :
    loaded s a = .ok c → c.overridden a.overrides = .ok d → payload s a = .ok r →
    d.provider.build transport = .ok provider →
    Matcher.ofSettings provider d.matching = .ok matcher → Prepares (.ok (matcher, r))

theorem exists_prepares : ∃ prepared, Prepares s a transport prepared := by
  cases hloaded : loaded s a with
  | error e => exact ⟨_, .unloaded hloaded⟩
  | ok c =>
  cases hoverridden : c.overridden a.overrides with
  | error e => exact ⟨_, .notOverridden hloaded hoverridden⟩
  | ok d =>
  cases hpayload : payload s a with
  | error message => exact ⟨_, .unread hloaded hoverridden hpayload⟩
  | ok r =>
  cases hprovider : d.provider.build transport with
  | error e => exact ⟨_, .noProvider hloaded hoverridden hpayload hprovider⟩
  | ok provider =>
  cases hmatcher : Matcher.ofSettings provider d.matching with
  | error e => exact ⟨_, .noMatcher hloaded hoverridden hpayload hprovider hmatcher⟩
  | ok matcher => exact ⟨_, .ready hloaded hoverridden hpayload hprovider hmatcher⟩

variable {s a transport}

/-- A run goes on with what the stages before the recommendations come to. -/
theorem Prepares.result_eq {prepared : Except String (Matcher m × Payload)}
    (h : Prepares s a transport prepared) :
    result transport s a =
      match prepared with
      | .error message => return .error message
      | .ok (matcher, r) => do
        return (← matcher.recommend r).mapError Error.message := by
  cases h with
  | unloaded hloaded =>
    simp [result, settings_eq, hloaded, Except.mapError, bind, Except.bind]
  | notOverridden hloaded hoverridden =>
    simp [result, settings_eq, hloaded, hoverridden, Except.mapError, bind, Except.bind]
  | unread hloaded hoverridden hpayload =>
    simp [result, settings_eq, hloaded, hoverridden, hpayload, Except.mapError, bind, Except.bind]
  | noProvider hloaded hoverridden hpayload hprovider =>
    simp [result, settings_eq, hloaded, hoverridden, hpayload, hprovider, Except.mapError, bind,
      Except.bind]
  | noMatcher hloaded hoverridden hpayload hprovider hmatcher =>
    simp [result, settings_eq, hloaded, hoverridden, hpayload, hprovider, hmatcher, Except.mapError,
      bind, Except.bind]
  | ready hloaded hoverridden hpayload hprovider hmatcher =>
    simp only [result, settings_eq, hloaded, hoverridden, hpayload, hprovider, hmatcher,
      Except.mapError, bind, Except.bind]
    rfl

end Preparation

/-! ## Runs -/

variable {σ : Type} (transport : Transport (StateM σ)) (w : σ)

/-- Whether a stage of a run fails that finds the service in a state, and all stages before it
    succeed, with the words of its error. -/
inductive Stops : String → Prop
  | preparing {message : String} : Prepares s a transport (.error message) → Stops message
  | recommending {matcher : Matcher (StateM σ)} {r : Payload} {e : Error} :
    Prepares s a transport (.ok (matcher, r)) → ((matcher.recommend r).run w).1 = .error e →
    Stops e.message

/-- Whether all stages of a run succeed, with the recommendations of a matcher for a payload. -/
structure Finishes (matcher : Matcher (StateM σ)) (r : Payload) (rs : Recommendations) : Prop where
  prepares : Prepares s a transport (.ok (matcher, r))
  recommends : ((matcher.recommend r).run w).1 = .ok rs

theorem stops_or_finishes :
    (∃ message, Stops s a transport w message) ∨
      ∃ matcher r rs, Finishes s a transport w matcher r rs := by
  obtain ⟨prepared, hprepares⟩ := exists_prepares s a transport
  rcases prepared with message | ⟨matcher, r⟩
  · exact .inl ⟨message, .preparing hprepares⟩
  · cases hrecommends : ((matcher.recommend r).run w).1 with
    | error e => exact .inl ⟨e.message, .recommending hprepares hrecommends⟩
    | ok rs => exact .inr ⟨matcher, r, rs, hprepares, hrecommends⟩

variable {s a transport w} {matcher : Matcher (StateM σ)} {r : Payload} {rs : Recommendations}

theorem Prepares.result_run (h : Prepares s a transport (.ok (matcher, r))) (w : σ) :
    (result transport s a).run w =
      (((matcher.recommend r).run w).1.mapError Error.message,
        ((matcher.recommend r).run w).2) := by
  rw [h.result_eq]
  rfl

theorem Stops.result_run {message : String} (h : Stops s a transport w message) :
    ((result transport s a).run w).1 = .error message := by
  cases h with
  | preparing hprepares =>
    rw [hprepares.result_eq]
    rfl
  | recommending hprepares hrecommends =>
    rw [hprepares.result_run, hrecommends]
    rfl

theorem Finishes.result_run (h : Finishes s a transport w matcher r rs) :
    (result transport s a).run w = (.ok rs, ((matcher.recommend r).run w).2) := by
  rw [h.prepares.result_run, h.recommends]
  rfl

/-- A run that has recommendations for its result has finished with them. -/
theorem exists_finishes (h : ((result transport s a).run w).1 = .ok rs) :
    ∃ matcher r, Finishes s a transport w matcher r rs := by
  rcases stops_or_finishes s a transport w with ⟨message, hstops⟩ | ⟨matcher, r, rs', hfinishes⟩
  · rw [hstops.result_run] at h
    exact nomatch h
  · rw [hfinishes.result_run] at h
    obtain rfl : rs' = rs := Except.ok.inj h
    exact ⟨matcher, r, hfinishes⟩

/-- What a run finishes with depends neither on its log filter nor on where it is to write to. -/
theorem Finishes.elsewhere (h : Finishes s a transport w matcher r rs) (logVariable : Option String)
    (standardOutput : Outlet) (create : String → Option Outlet) (output : Option String)
    (logLevel : String) :
    Finishes { s with logVariable, standardOutput, create } { a with output, logLevel } transport w
      matcher r rs := by
  obtain ⟨hprepares, hrecommends⟩ := h
  cases hprepares with
  | ready hloaded hoverridden hpayload hprovider hmatcher =>
    exact ⟨.ready hloaded hoverridden hpayload hprovider hmatcher, hrecommends⟩

/-- The payload is that of the text that it was read from, whether this is a file or the standard
    input. -/
theorem ofText_eq_of_payload {text : String} (hpayload : payload s a = .ok r)
    (htext : payloadBytes s a = .ok (Text.bytes text)) : Payload.ofText text = .ok r := by
  have hread : ∀ given : Except Error Payload, given.mapError Error.message = .ok r →
      given = .ok r := by
    intro given h
    cases given with
    | error e => exact nomatch h
    | ok r' => exact congrArg _ (Except.ok.inj h)
  rw [payloadBytes] at htext
  cases hinput : a.input with
  | none =>
    rw [hinput] at htext
    rw [payload_of_standardInput hinput (Except.ok.inj htext)] at hpayload
    exact hread _ hpayload
  | some path =>
    rw [hinput] at htext
    rw [payload_of_file hinput htext] at hpayload
    exact (Payload.agree_ofStream text).eq_ok (hread _ hpayload)

/-- What a run finishes with is what the matcher makes of the text of the payload. -/
theorem Finishes.recommendText_run (h : Finishes s a transport w matcher r rs) {text : String}
    (htext : payloadBytes s a = .ok (Text.bytes text)) :
    (matcher.recommendText text).run w = (.ok rs.indented, ((matcher.recommend r).run w).2) := by
  cases h.prepares with
  | ready _ _ hpayload _ _ =>
    have hrun : (matcher.recommendText text).run w =
        (((matcher.recommend r).run w).1.map Recommendations.indented,
          ((matcher.recommend r).run w).2) := by
      rw [Matcher.recommendText, ofText_eq_of_payload hpayload htext]
      rfl
    rw [hrun, h.recommends]
    rfl

/-! ## Log filters -/

/-- A filter that is one directive can be used as that directive can. -/
theorem checkFilter_of_splitOn {filter : String} (h : filter.splitOn "," = [filter])
    (hfilter : filter.isEmpty = false) :
    checkFilter filter = checkDirective filter.toList := by
  rw [checkFilter, h, List.filter_cons_of_pos (by simp [hfilter])]
  change (do checkDirective filter.toList; pure ⟨⟩ : Except FilterFault PUnit) = _
  cases checkDirective filter.toList <;> rfl

/-- The variable decides if its filter can be used. If it is not set, or its filter is refused, the
    log level decides. -/
theorem checkLog_eq_ok_iff :
    checkLog s a = .ok () ↔
      (∃ filter, s.logVariable = some filter ∧ checkFilter filter = .ok ()) ∨
        (∀ filter, s.logVariable = some filter → checkFilter filter = .error .refused) ∧
          checkFilter a.logLevel = .ok () := by
  rw [checkLog]
  cases s.logVariable with
  | none => simp
  | some filter =>
    rw [Option.map_some]
    rcases hfilter : checkFilter filter with (_ | _) | _ <;> simp [hfilter]

theorem perform_run (hlog : checkLog s a = .ok ()) :
    (perform transport s a).run w =
      (match ((result transport s a).run w).1 with
        | .error message => .failed message
        | .ok rs => deliver s a.output rs,
        ((result transport s a).run w).2) := by
  rw [perform, hlog]
  simp only [StateT.run_bind]
  rcases (result transport s a).run w with ⟨message | rs, after⟩ <;> rfl

theorem Stops.perform_run {message : String} (h : Stops s a transport w message)
    (hlog : checkLog s a = .ok ()) :
    ((perform transport s a).run w).1 = .failed message := by
  rw [CommandLine.perform_run hlog, h.result_run]

theorem Finishes.perform_run (h : Finishes s a transport w matcher r rs)
    (hlog : checkLog s a = .ok ()) :
    (perform transport s a).run w =
      (deliver s a.output rs, ((matcher.recommend r).run w).2) := by
  rw [CommandLine.perform_run hlog, h.result_run]

/-! ## Writing -/

variable {output : Option String} {outlet : Outlet}

/-- Whether an outlet takes some bytes, all of them, and the end. -/
def Outlet.Takes (outlet : Outlet) (bytes : List UInt8) : Prop :=
  (∀ capacity ∈ outlet.sink.capacity, bytes.length ≤ capacity) ∧ outlet.sink.flushes = true

theorem receive_of_takes (h : outlet.Takes rs.written) :
    outlet.receive rs = (.ok (), rs.written) := by
  obtain ⟨htaken, hresult⟩ := rs.write_spec outlet.sink
  have hall : (rs.write outlet.sink).2 = rs.written := by
    rw [htaken]
    cases hcapacity : outlet.sink.capacity with
    | none => rfl
    | some capacity => exact List.take_of_length_le (h.1 capacity hcapacity)
  have hwrite : rs.write outlet.sink = (.ok (), rs.written) := Prod.ext (hresult.2 h) hall
  have hflush : outlet.sink.flush = .ok () := if_pos h.2
  rw [Outlet.receive, hflush, hwrite]
  rfl

/-- Where an outlet does not take all, writing ends with the error that it comes to, and a beginning
    of the text gets through. -/
theorem exists_receive_of_not_takes (h : ¬outlet.Takes rs.written) :
    ∃ e bytes, (rs.write outlet.sink).1 = .error e ∧ bytes <+: rs.written ∧
      outlet.receive rs = (.error e.message, bytes) := by
  obtain ⟨htaken, hresult⟩ := rs.write_spec outlet.sink
  rcases hwrite : rs.write outlet.sink with ⟨_ | _, taken⟩
  · next e =>
    have hprefix : taken <+: rs.written := by
      rw [hwrite] at htaken
      change taken = _ at htaken
      rw [htaken]
      cases outlet.sink.capacity with
      | none => exact List.prefix_rfl
      | some capacity => exact List.take_prefix _ _
    refine ⟨e, taken.take outlet.kept, rfl, (List.take_prefix _ _).trans hprefix, ?_⟩
    rw [Outlet.receive, hwrite]
    rfl
  · exact absurd (hresult.1 (by rw [hwrite])) h

/-- Without a file to write to, or with one that can be created, a run can write. -/
theorem outlet_eq_error_iff {message : String} :
    s.outlet output = .error message ↔
      ∃ path, output = some path ∧ s.create path = none ∧
        message = "failed to create " ++ path := by
  cases output with
  | none => simp [Surroundings.outlet]
  | some path =>
    rw [Surroundings.outlet]
    cases hcreate : s.create path <;> simp [hcreate, @eq_comm _ message]

theorem left_ok (output : Option String) (bytes : List UInt8) :
    (Outcome.left output (.ok ()) bytes).code = 0 ∧
      (Outcome.left output (.ok ()) bytes).complaint = none ∧
      (Outcome.left output (.ok ()) bytes).Leaves output bytes := by
  cases output <;> exact ⟨rfl, rfl, rfl, rfl⟩

theorem left_error (output : Option String) (message : String) (bytes : List UInt8) :
    (Outcome.left output (.error message) bytes).code = 1 ∧
      (Outcome.left output (.error message) bytes).complaint = some ("Error: " ++ message) ∧
      (Outcome.left output (.error message) bytes).Leaves output bytes := by
  cases output <;> exact ⟨rfl, rfl, rfl, rfl⟩

theorem deliver_eq_left (h : s.outlet output = .ok outlet) :
    deliver s output rs = .left output (outlet.receive rs).1 (outlet.receive rs).2 := by
  rw [deliver, h]

/-- How a run ends. Its log filter is that of the variable, or else its log level, and one that
    cannot be used ends it before any stage. Otherwise it ends with the error of the first stage
    that fails and writes nothing; or, if none fails, it has what the matcher makes of the text of
    the payload, and a line feed, to write. It writes nothing if its file cannot be created, and all
    of the text where that is taken. Where it is not, the run ends with the error of writing, after
    a beginning of the text. -/
theorem session_outcome (transport : Transport (StateM σ)) (s : Surroundings)
    {arguments : List String} {a : Arguments} (h : read arguments = .ok (.run a)) (w : σ) :
    let run := (session transport s arguments).run w
    (checkLog s a = .ok () ↔
      (∃ filter, s.logVariable = some filter ∧ checkFilter filter = .ok ()) ∨
        (∀ filter, s.logVariable = some filter → checkFilter filter = .error .refused) ∧
          checkFilter a.logLevel = .ok ()) ∧
    (∀ fault, checkLog s a = .error fault →
      run.1.WritesNothing ∧ (fault = .refused → run.1 = .failed "invalid log level")) ∧
    (checkLog s a = .ok () →
      ((∃ message, Stops s a transport w message) ∨
        ∃ matcher r rs, Finishes s a transport w matcher r rs) ∧
      (∀ message, Stops s a transport w message →
        run.1.WritesNothing ∧ run.1 = .failed message) ∧
      ∀ matcher r rs, Finishes s a transport w matcher r rs →
        (∀ text, payloadBytes s a = .ok (Text.bytes text) →
          (matcher.recommendText text).run w = (.ok rs.indented, run.2)) ∧
        (∀ path, a.output = some path → s.create path = none →
          run.1.WritesNothing ∧ run.1 = .failed ("failed to create " ++ path)) ∧
        ∀ outlet, s.outlet a.output = .ok outlet →
          (outlet.Takes (Text.bytes (rs.indented ++ "\n")) →
            run.1.code = 0 ∧ run.1.complaint = none ∧
              run.1.Leaves a.output (Text.bytes (rs.indented ++ "\n"))) ∧
          (¬outlet.Takes (Text.bytes (rs.indented ++ "\n")) →
            ∃ e bytes, (rs.write outlet.sink).1 = .error e ∧
              bytes <+: Text.bytes (rs.indented ++ "\n") ∧
              run.1.code = 1 ∧ run.1.complaint = some ("Error: " ++ e.message) ∧
              run.1.Leaves a.output bytes)) := by
  intro run
  have hrun : run = (perform transport s a).run w := by
    simp only [run, session, h]
  refine ⟨checkLog_eq_ok_iff, fun fault hfault => ?_,
    fun hlog => ⟨stops_or_finishes s a transport w, ?_, ?_⟩⟩
  · -- The log filter cannot be used.
    rw [perform, hfault] at hrun
    rw [hrun]
    cases fault with
    | refused => exact ⟨⟨rfl, rfl⟩, fun _ => rfl⟩
    | cut => exact ⟨⟨rfl, rfl⟩, nofun⟩
  · -- A stage fails.
    intro message hstops
    rw [hrun, hstops.perform_run hlog]
    exact ⟨⟨rfl, rfl⟩, rfl⟩
  · -- No stage fails, so that all that is left is to write the text.
    intro matcher r rs hfinishes
    rw [hfinishes.perform_run hlog] at hrun
    refine ⟨fun text htext => ?_, fun path hpath hcreate => ?_,
      fun outlet houtlet => ⟨fun htakes => ?_, fun htakes => ?_⟩⟩
    · rw [hrun, hfinishes.recommendText_run htext]
    · have hnone : s.outlet a.output = .error ("failed to create " ++ path) :=
        outlet_eq_error_iff.2 ⟨path, hpath, hcreate, rfl⟩
      rw [hrun, deliver, hnone]
      exact ⟨⟨rfl, rfl⟩, rfl⟩
    · rw [hrun, deliver_eq_left houtlet, receive_of_takes htakes]
      exact left_ok _ _
    · obtain ⟨e, bytes, hwrite, hprefix, hreceive⟩ := exists_receive_of_not_takes htakes
      refine ⟨e, bytes, hwrite, hprefix, ?_⟩
      rw [hrun, deliver_eq_left houtlet, hreceive]
      exact left_error _ _ _

/-- A service that does not respond. -/
def silent : Transport (StateM Unit) := fun _ => pure none

/-- Surroundings with a payload of one field and one API method on the standard input, and nothing
    else: no variable, no file, and none that could be created. -/
def bare : Surroundings where
  logVariable := none
  content _ := .error .notFound
  standardInput := Text.bytes (Payload.toJson ⟨Table.ofList [("a", "x")], [⟨"n", "y"⟩]⟩).compact
  standardOutput := .unlimited
  create _ := none

/-- Arguments of which the threshold is beyond every score. -/
def demanding : Arguments :=
  { Arguments.standard with
    overrides := { Overrides.none with threshold := some 2, dimension := some 1 } }

theorem indented_result_demanding :
    ((result silent bare demanding).run ()).1.map Recommendations.indented = .ok "\x7b\x7d" := by
  decide +kernel

/-- All stages of the run succeed, and nothing is recommended. -/
theorem exists_finishes_demanding :
    ∃ matcher r rs, Finishes bare demanding silent () matcher r rs ∧ rs.indented = "\x7b\x7d" := by
  have hindented := indented_result_demanding
  cases hresult : ((result silent bare demanding).run ()).1 with
  | error message => simp [hresult, Except.map] at hindented
  | ok rs =>
    rw [hresult] at hindented
    obtain ⟨matcher, r, hfinishes⟩ := exists_finishes hresult
    exact ⟨matcher, r, rs, hfinishes, Except.ok.inj hindented⟩

theorem checkLog_demanding : checkLog bare demanding = .ok () := by
  have hsplit : "warn".splitOn "," = ["warn"] := by
    rw [String.splitOn, String.splitOnAux, String.splitOnAux, String.splitOnAux, String.splitOnAux,
      String.splitOnAux]
    rfl
  exact checkFilter_of_splitOn hsplit rfl

theorem session_outcome_demanding :
    read ["--threshold", "2", "--dimension", "1"] = .ok (.run demanding) ∧
      ((session silent bare ["--threshold", "2", "--dimension", "1"]).run ()).1.Leaves none
        (Text.bytes "\x7b\x7d\n") := by
  have hread : read ["--threshold", "2", "--dimension", "1"] = .ok (.run demanding) := by
    rfl
  refine ⟨hread, ?_⟩
  obtain ⟨matcher, r, rs, hfinishes, hindented⟩ := exists_finishes_demanding
  have hspec := (session_outcome silent bare hread ()).2.2 checkLog_demanding
  have hwritten := (hspec.2.2 matcher r rs hfinishes).2.2 .unlimited rfl
  rw [hindented] at hwritten
  exact (hwritten.1 ⟨nofun, rfl⟩).2.2

/-- All stages of three runs succeed with a payload that is a text, and yet none writes anything:
    the log level of the first cannot be used, the file of the second cannot be created, and the
    standard output of the third takes nothing. A fourth run stops at its first stage, but ends with
    the error of its log level. -/
theorem perform_unwritten :
    let full := { bare with standardOutput := ⟨⟨some 0, .other "full", true, .other ""⟩, 0⟩ }
    (∀ run ∈ [(bare, { demanding with logLevel := "[" }),
        (bare, { demanding with output := some "out.json" }), (full, demanding)],
      (∃ text, payloadBytes run.1 run.2 = .ok (Text.bytes text)) ∧
        (∃ matcher r rs, Finishes run.1 run.2 silent () matcher r rs) ∧
        ((perform silent run.1 run.2).run ()).1.WritesNothing) ∧
    Stops bare { demanding with config := some "absent.json", logLevel := "[" } silent ()
        (Error.io .notFound).message ∧
      ((perform silent bare { demanding with config := some "absent.json", logLevel := "[" }).run
        ()).1 = .failed "invalid log level" := by
  intro full
  obtain ⟨matcher, r, rs, h, hindented⟩ := exists_finishes_demanding
  have hrefused : ∀ a : Arguments, a.logLevel = "[" → checkLog bare a = .error .refused := by
    intro a ha
    have hsplit : "[".splitOn "," = ["["] := by
      rw [String.splitOn, String.splitOnAux, String.splitOnAux]
      rfl
    rw [checkLog, ha]
    exact checkFilter_of_splitOn hsplit rfl
  have hlevel : Finishes bare { demanding with logLevel := "[" } silent () matcher r rs :=
    h.elsewhere none bare.standardOutput bare.create none "["
  have houtput :
      Finishes bare { demanding with output := some "out.json" } silent () matcher r rs :=
    h.elsewhere none bare.standardOutput bare.create (some "out.json") demanding.logLevel
  have hfull : Finishes full demanding silent () matcher r rs :=
    h.elsewhere none full.standardOutput bare.create none demanding.logLevel
  refine ⟨?_, .preparing (.unloaded rfl), ?_⟩
  · simp only [List.mem_cons, List.not_mem_nil, or_false, forall_eq_or_imp, forall_eq]
    refine ⟨⟨⟨_, rfl⟩, ⟨_, _, _, hlevel⟩, ?_⟩, ⟨⟨_, rfl⟩, ⟨_, _, _, houtput⟩, ?_⟩,
      ⟨⟨_, rfl⟩, ⟨_, _, _, hfull⟩, ?_⟩⟩
    · rw [perform, hrefused _ rfl]
      exact ⟨rfl, rfl⟩
    · rw [houtput.perform_run checkLog_demanding]
      exact ⟨rfl, rfl⟩
    · have hreceive :
          full.standardOutput.receive rs = (.error "Serialization error: full", []) := by
        rw [Outlet.receive, Recommendations.write, hindented]
        rfl
      rw [hfull.perform_run checkLog_demanding]
      change (deliver full none rs).WritesNothing
      rw [deliver_eq_left rfl, hreceive]
      exact ⟨rfl, rfl⟩
  · rw [perform, hrefused _ rfl]
    rfl

end CommandLine

end SchemaMatch
