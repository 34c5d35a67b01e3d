import DataflowPlan.Cluster.Service
import DataflowPlan.Json.Value

/-!
The JSON form of what nodes report. It is written only.
-/

namespace DataflowPlan

open Json in
def SetReport.toJson (r : SetReport) : Value :=
  .object [
    ("database", .text r.database),
    ("set_name", .text r.name),
    ("num_pages", .natural r.pages),
    ("page_size", .natural r.pageSize)]

end DataflowPlan
