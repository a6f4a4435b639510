import MultiSpeed.Lib.Program
import MultiSpeed.Network.Route

/-!
# The calls of a route validation

`RouteValidator.Validate` as a program: what it asks in turn of the interface service,
of the resolver, of the `ip` command and of the trace endpoint.  With the answers to all
of it at hand it is `validate`.
-/

namespace MultiSpeed.Network

open Concurrent Execution Providers

inductive RouteCall where
  /-- `v.currentTime()`, at the beginning and at the end. -/
  | started
  | finished
  /-- The snapshot that `ValidateSource` reads. -/
  | interfaces
  | newResolver (source : BitVec 128)
  | lookupIPAddr (source : BitVec 128) (host : String)
  /-- `ip -j route get <target> from <source>` -/
  | routeGet (target source : String)
  | newDialer (source : BitVec 128)
  /-- The request to the trace endpoint, which is the same for every target. -/
  | trace

def RouteCall.Answer : RouteCall → Type
  | .started | .finished => Time
  | .interfaces => List NetworkInterface
  | .newResolver _ | .newDialer _ => Except Text Unit
  | .lookupIPAddr _ _ => Except Text (List (BitVec 128))
  | .routeGet _ _ => Except CommandError CommandOutput
  | .trace => Except Text TraceResponse

/-- The look-up of a name or of a route. -/
def RouteCall.Looks : RouteCall → Prop
  | .lookupIPAddr _ _ | .routeGet _ _ => True
  | _ => False

def Answers.answer (answers : Answers) : (c : RouteCall) → c.Answer
  | .started => answers.started
  | .finished => answers.finished
  | .interfaces => answers.interfaces
  | .newResolver _ => answers.newResolver
  | .newDialer _ => answers.newDialer
  | .lookupIPAddr _ host => answers.lookupIPAddr host
  | .routeGet target source => answers.routeGet target source
  | .trace => answers.trace

abbrev Routing := Program RouteCall.Answer

namespace RouteValidator

abbrev ask (c : RouteCall) : Routing c.Answer := Program.perform c

def linuxRouteLookup (target source interfaceName : String) :
    Routing (Except Text RouteLookup) :=
  let invalid (value : String) : Bool :=
    containsAny value [Char.ofNat 0, '\r', '\n'] || trimmed value ≠ value
  if invalid target then pure (.error (utf8 "invalid target"))
  else if invalid source then pure (.error (utf8 "invalid source"))
  else if invalid interfaceName then pure (.error (utf8 "invalid interface"))
  else do
    match ← ask (.routeGet target source) with
    | .error (.exit stderr) =>
        pure (.error (utf8 "ip route lookup failed: " ++ sanitizeText stderr 2048))
    | .error (.other message) => pure (.error (utf8 "ip route lookup failed: " ++ message))
    | .ok output =>
        if maxRouteOutput < output.length then
          pure (.error (utf8 "ip route output exceeded safety limit"))
        else pure (parseRouteLookup output)

def resolveTarget (net : Net) (target source : String) : Routing (Except Text String) :=
  let target := trimmed target
  match net.parseIP target with
  | some ip => pure (.ok (net.ipString ip))
  | none =>
      if target = "" || 253 < target.utf8ByteSize ||
          containsAny target [' ', '/', '\\', Char.ofNat 0, '\r', '\n'] then
        pure (.error (utf8 "validation target is not a valid hostname or IP"))
      else
        match net.parseIP source with
        | none => pure (.error (utf8 "source IP is invalid"))
        | some sourceIP => do
            match ← ask (.newResolver sourceIP) with
            | .error e => pure (.error (utf8 "create source-bound resolver: " ++ e))
            | .ok () =>
                match ← ask (.lookupIPAddr sourceIP target) with
                | .error e => pure (.error
                    (utf8 "resolve validation target over selected source: " ++ e))
                | .ok addresses =>
                    match addresses.find? fun address ↦ isIPv4 sourceIP = isIPv4 address with
                    | some address => pure (.ok (net.ipString address))
                    | none => pure (.error
                        (utf8 "validation target has no address matching the selected IP family"))

def boundTrace (net : Net) (source : String) : Routing (Except Text (String × Text)) :=
  match net.parseIP source with
  | none => pure (.error (utf8 "invalid source address"))
  | some ip => do
      match ← ask (.newDialer ip) with
      | .error e => pure (.error (utf8 "create source-bound dialer: " ++ e))
      | .ok () =>
          match ← ask .trace with
          | .error e => pure (.error e)
          | .ok response =>
              if response.statusCode ≠ 200 then
                pure (.error (utf8 ("trace endpoint returned HTTP " ++
                  toString response.statusCode)))
              else
                match response.body with
                | .error e => pure (.error e)
                | .ok data =>
                    let body := data.take 16384
                    let publicIP := decoded (traceValue body "ip")
                    match net.parseIP publicIP with
                    | none => pure (.error
                        (utf8 "trace endpoint did not return a valid public IP"))
                    | some _ => pure (.ok (publicIP, traceValue body "colo"))

variable (env : Env) (lower : Char → Char) (linux : Bool) (profile : RouteProfile)

/-- The body of `Validate`, from the result it begins with. -/
def checks (result : RouteValidation) : Routing RouteValidation := do
  let items ← ask .interfaces
  match validateSource env items profile.interfaceName profile.sourceIP with
  | some message => pure { result with message := utf8 message }
  | none =>
      if !linux then
        pure { result with message := utf8 "route lookup is supported only on Linux" }
      else
        match ← resolveTarget env.net profile.validationTarget profile.sourceIP with
        | .error e => pure { result with message := e }
        | .ok target =>
            match ← linuxRouteLookup target profile.sourceIP profile.interfaceName with
            | .error e => pure { result with destination := target, message := e }
            | .ok route =>
                let result := { result with
                  destination := target
                  interfaceName := route.device
                  sourceIP := route.source
                  gateway := route.gateway
                  routingTable := route.table }
                match routeMismatch env lower profile route with
                | some message => pure { result with message := utf8 message }
                | none =>
                    match ← boundTrace env.net profile.sourceIP with
                    | .error e => pure { result with
                        message :=
                          utf8 "route lookup passed but bound reachability failed: " ++ e }
                    | .ok (publicIP, colo) => pure { result with
                        detectedPublicIP := publicIP
                        reachable := true
                        success := true
                        message := utf8 ("selected interface, source address, route, and " ++
                            "public reachability validated") ++
                          if colo = [] then [] else utf8 "; Cloudflare colo " ++ colo }

/-- `RouteValidator.Validate` -/
def validate : Routing RouteValidation := do
  let started ← ask .started
  let result ← checks env lower linux profile {
    success := false
    interfaceName := profile.interfaceName
    sourceIP := profile.sourceIP
    gateway := ""
    routingTable := ""
    destination := profile.validationTarget
    detectedPublicIP := ""
    reachable := false
    durationMS := 0
    validatedAt := started
    message := [] }
  -- the deferred function
  let finished ← ask .finished
  pure { result with durationMS := milliseconds started finished }

/-! ## The answers at hand -/

section

variable {env lower linux profile} {net : Net} (answers : Answers)

theorem eval_linuxRouteLookup (target source interfaceName : String) :
    (linuxRouteLookup target source interfaceName).eval answers.answer =
      Network.linuxRouteLookup answers target source interfaceName := by
  simp only [linuxRouteLookup, Network.linuxRouteLookup]
  split
  · rfl
  split
  · rfl
  split
  · rfl
  rw [Program.perform_bind, Program.eval_call, Answers.answer]
  cases answers.routeGet target source with
  | error e => cases e <;> rfl
  | ok output =>
      simp only
      split <;> rfl

theorem eval_resolveTarget (target source : String) :
    (resolveTarget net target source).eval answers.answer =
      Network.resolveTarget net answers target source := by
  simp only [resolveTarget, Network.resolveTarget]
  cases net.parseIP (trimmed target) with
  | some ip => rfl
  | none =>
      simp only
      split
      · rfl
      cases net.parseIP source with
      | none => rfl
      | some sourceIP =>
          simp only
          rw [Program.perform_bind, Program.eval_call, Answers.answer]
          cases answers.newResolver with
          | error e => rfl
          | ok _ =>
              simp only
              rw [Program.perform_bind, Program.eval_call, Answers.answer]
              cases answers.lookupIPAddr (trimmed target) with
              | error e => rfl
              | ok addresses =>
                  simp only
                  cases addresses.find? fun address ↦ isIPv4 sourceIP = isIPv4 address with
                  | some address => rfl
                  | none => rfl

theorem eval_boundTrace (source : String) :
    (boundTrace net source).eval answers.answer = Network.boundTrace net answers source := by
  simp only [boundTrace, Network.boundTrace]
  cases net.parseIP source with
  | none => rfl
  | some ip =>
      simp only
      rw [Program.perform_bind, Program.eval_call, Answers.answer]
      cases answers.newDialer with
      | error e => rfl
      | ok _ =>
          simp only
          rw [Program.perform_bind, Program.eval_call, Answers.answer]
          cases answers.trace with
          | error e => rfl
          | ok response =>
              simp only
              split
              · rfl
              cases response.body with
              | error e => rfl
              | ok data =>
                  simp only
                  cases net.parseIP (decoded (traceValue (data.take 16384) "ip")) with
                  | some publicIP => rfl
                  | none => rfl

/-- The program asks for what `validate` computes with. -/
theorem eval_validate : (validate env lower answers.linux profile).eval answers.answer =
    Network.validate env lower answers profile := by
  simp only [validate, checks, Program.perform_bind, Program.eval_call, Program.eval_bind,
    Network.validate, Answers.answer]
  cases validateSource env answers.interfaces profile.interfaceName profile.sourceIP with
  | some message => rfl
  | none =>
      simp only
      cases answers.linux with
      | false => rfl
      | true =>
          simp only [Bool.not_true, Bool.false_eq_true, if_false]
          rw [Program.eval_bind, eval_resolveTarget]
          cases Network.resolveTarget env.net answers profile.validationTarget profile.sourceIP with
          | error e => rfl
          | ok target =>
              simp only
              rw [Program.eval_bind, eval_linuxRouteLookup]
              cases Network.linuxRouteLookup answers target profile.sourceIP
                  profile.interfaceName with
              | error e => rfl
              | ok route =>
                  simp only
                  cases routeMismatch env lower profile route with
                  | some message => rfl
                  | none =>
                      simp only
                      rw [Program.eval_bind, eval_boundTrace]
                      cases Network.boundTrace env.net answers profile.sourceIP with
                      | error e => rfl
                      | ok trace => rfl

end

/-! ## What is looked up -/

section

variable {env lower linux profile} {net : Net} {target source : String}

/-- What a validation looks up is its target: the name, where it is one, and the route to
the address it stands for. -/
def Towards (net : Net) (target source : String) : RouteCall → Prop
  | .lookupIPAddr _ host => host = trimmed target ∧ net.parseIP host = none
  | .routeGet address from_ =>
      from_ = source ∧ (resolveTarget net target source).Returns (.ok address)
  | _ => True

theorem only_resolveTarget : (resolveTarget net target source).Only (Towards net target source) := by
  rw [resolveTarget]
  cases hliteral : net.parseIP (trimmed target) with
  | some ip => exact Program.Only.pure
  | none =>
      simp only
      apply Program.Only.ite Program.Only.pure
      cases net.parseIP source with
      | none => exact Program.Only.pure
      | some sourceIP =>
          apply Program.Only.perform (c := RouteCall.newResolver sourceIP) trivial
          rintro (e | _)
          · exact Program.Only.pure
          apply Program.Only.perform (c := RouteCall.lookupIPAddr sourceIP (trimmed target))
            ⟨rfl, hliteral⟩
          rintro (e | addresses)
          · exact Program.Only.pure
          simp only
          split <;> exact Program.Only.pure

theorem only_linuxRouteLookup {address interfaceName : String}
    (h : (resolveTarget net target source).Returns (.ok address)) :
    (linuxRouteLookup address source interfaceName).Only (Towards net target source) := by
  rw [linuxRouteLookup]
  apply Program.Only.ite Program.Only.pure
  apply Program.Only.ite Program.Only.pure
  apply Program.Only.ite Program.Only.pure
  apply Program.Only.perform (c := RouteCall.routeGet address source) ⟨rfl, h⟩
  rintro ((_ | _) | output)
  · exact Program.Only.pure
  · exact Program.Only.pure
  · exact Program.Only.ite Program.Only.pure Program.Only.pure

theorem only_boundTrace : (boundTrace net source).Only (Towards net target source) := by
  rw [boundTrace]
  cases net.parseIP source with
  | none => exact Program.Only.pure
  | some ip =>
      apply Program.Only.perform (c := RouteCall.newDialer ip) trivial
      rintro (e | _)
      · exact Program.Only.pure
      apply Program.Only.perform (c := RouteCall.trace) trivial
      rintro (e | response)
      · exact Program.Only.pure
      apply Program.Only.ite Program.Only.pure
      cases response.body with
      | error e => exact Program.Only.pure
      | ok data =>
          simp only
          split <;> exact Program.Only.pure

theorem only_validate : (validate env lower linux profile).Only
    (Towards env.net profile.validationTarget profile.sourceIP) := by
  apply Program.Only.perform (c := RouteCall.started) trivial
  intro started
  apply Program.Only.bind
  · apply Program.Only.perform (c := RouteCall.interfaces) trivial
    intro items
    split
    · exact Program.Only.pure
    apply Program.Only.ite Program.Only.pure
    apply only_resolveTarget.bind_returns
    rintro (e | target) htarget
    · exact Program.Only.pure
    apply (only_linuxRouteLookup htarget).bind
    rintro (e | route)
    · exact Program.Only.pure
    simp only
    split
    · exact Program.Only.pure
    apply only_boundTrace.bind
    rintro (e | trace) <;> exact Program.Only.pure
  · intro result
    apply Program.Only.perform (c := RouteCall.finished) trivial
    exact fun finished ↦ Program.Only.pure

/-- An address is looked up as it is written. -/
theorem towards_literal {ip : BitVec 128} (hip : net.parseIP (trimmed target) = some ip)
    {c : RouteCall} (hc : Towards net target source c) (hlooks : c.Looks) :
    c = .routeGet (net.ipString ip) source := by
  cases c with
  | lookupIPAddr resolver host =>
      obtain ⟨rfl, hnone⟩ := hc
      rw [hip] at hnone
      cases hnone
  | routeGet address from_ =>
      obtain ⟨rfl, hreturns⟩ := hc
      rw [resolveTarget, hip] at hreturns
      rw [← Except.ok.inj hreturns]
  | _ => cases hlooks

end

end RouteValidator

end MultiSpeed.Network
