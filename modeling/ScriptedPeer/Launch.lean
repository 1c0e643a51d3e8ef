import ScriptedPeer.Lifecycle
import ScriptedPeer.Scenario.Catalog
import ScriptedPeer.Scenario.Wiring

/-!
# Launching

A launch brings together what a run needs: the scenario, the settings, where to listen and whom to
call. Everything that can be refused is refused when the lifecycle is built, before an endpoint is
bound or a loop started, and of several faults the first is reported.
-/

namespace ScriptedPeer

structure Launch where
  scenario : String
  settings : Settings := {}
  listen : Option Endpoint := none
  /-- There is somebody to call. -/
  hasPeer : Bool := false
  stop : StopSignal := {}
  deriving DecidableEq, Repr

namespace Launch

/-- Advertised when the run listens nowhere. -/
def anyEndpoint : Endpoint := ⟨"0.0.0.0", 0⟩

def checkListen (l : Launch) (p : Plan) : Except RunFault Unit :=
  if p.serves && l.listen.isNone then
    .error (.invalid s!"Scenario {p.id.text} serves calls and needs a listen address")
  else .ok ()

def ofSettings {α : Type} : Except SettingsFault α → Except RunFault α
  | .ok a => .ok a
  | .error fault => .error (.settings fault)

def build (l : Launch) : Except RunFault Lifecycle := do
  ofSettings l.settings.validate
  let plan ← ofSettings (Catalog.lookup l.scenario)
  l.checkListen plan
  let profile := Profile.ofSettings l.settings (l.listen.getD anyEndpoint)
  let wiring ← plan.wire l.settings profile l.hasPeer
  return {
    scenario := plan.id.text
    stop := l.stop
    drain := l.settings.drainTimeout.toNat
    listen := match l.listen, wiring.table with
      | some endpoint, some table => some (endpoint, table)
      | _, _ => none
    pending := wiring.loops }

end Launch
end ScriptedPeer
