import SiphonSigtran.Transport.Aspm

/-!
# The servers of an association

An M3UA association is an ASP of any number of Application Servers, and active or not in each.
-/

namespace SiphonSigtran.Transport

/-- One Application Server an M3UA association is configured in. -/
structure Membership where
  server : ℕ
  position : ℕ
  context : ℕ
  mode : TrafficMode
  deriving DecidableEq, Repr

/-- The servers that an association is configured in, in the order of the configuration. -/
def memberships (servers : List ApplicationServer) (assoc : String) : List Membership :=
  servers.zipIdx.filterMap fun (entry, server) =>
    (entry.asps.findIdx? (· = assoc)).map fun position =>
      ⟨server, position, entry.routingContext, entry.trafficMode⟩

end SiphonSigtran.Transport
