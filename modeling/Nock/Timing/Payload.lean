import Nock.Text.Json
import Nock.Timing.Session

/-!
# Written results

The results of a session as a document: what is known of the host, the options, and the rows.
-/

namespace Nock.Timing

def hostKeys : List String := ["platform", "python", "jax", "cpu_count", "recursion_limit"]

def time (t : Option Binary) : Json := t.elim .null .number

def Row.toJson (r : Row) : Json :=
  .fields
    [("workload", .text r.workload), ("engine", .text r.engine), ("size", .int r.size),
      ("status", .text r.status), ("mean_ms", time r.mean), ("stdev_ms", time r.deviation),
      ("p50_ms", time r.median), ("p95_ms", time r.late)]

/-- A number of an option; an empty option is an empty list. -/
def number (n : Option Int) : Json := n.elim (.list []) .int

def Options.toJson (o : Options) : Json :=
  .fields
    [("sizes", .list (o.sizes.map .int)), ("samples", number o.samples), ("warmup", number o.warmup)]

def Session.toJson (s : Session) (o : Options) (host : Json) : Json :=
  .fields [("host", host), ("config", o.toJson), ("results", .list (s.rows.map Row.toJson))]

end Nock.Timing
