import LiveLayout.Proofs.Wire.Fitting

/-!
# What has a wire form, and how long it is

Each column on its own either has something wrong with it or has a block of bytes. Writing a frame
reports the first thing wrong, in the order in which columns and cells are gone through, and puts
the blocks behind the header if there is nothing.
-/

namespace LiveLayout

variable {ε α β : Type}

namespace Column

end Column

example : encodeColumns .nodes 0 2 [("a", .int [1, 2]), ("b", .int [1]), ("c", .text [])] =
    .error (.malformed (.columnRows "b" 1 2)) := by rfl

end LiveLayout
