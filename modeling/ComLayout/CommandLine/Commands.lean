import ComLayout.CommandLine.Grammar

/-!
# The commands

The lookup command looks up a vtable, and the measuring command tells how fast that goes. Each is a
grammar with the texts that explain it.
-/

namespace ComLayout.CommandLine

/-- How the lookup command is used. -/
def scanUsage : String :=
  "usage: vtabscan [-h] [--config CONFIG_PATH] [--dry-run] [-r] [--output OUTPUT]\n" ++
  "                [--out-dir OUT_DIR] [--out-prefix OUT_PREFIX] [--overwrite]\n" ++
  "                [--exclude EXCLUDE] [--max-file-bytes MAX_FILE_BYTES]\n" ++
  "                [--status-handle STATUS_HANDLE] [--no-progress] [--quiet]\n" ++
  "                [--verbose] [--log-file LOG_FILE]\n" ++
  "                [interface] [path]\n"

/-- What the lookup command understands. -/
def scanHelp : String :=
  scanUsage ++
  "\nExtract COM interface vtable layouts from C/C++ headers\n\n" ++
  "positional arguments:\n" ++
  "  interface             Interface name (case-insensitive)\n" ++
  "  path                  Header file, directory or glob pattern\n\n" ++
  "options:\n" ++
  "  -h, --help            show this help message and exit\n" ++
  "  --config CONFIG_PATH\n" ++
  "  --dry-run             Print candidate headers and exit\n" ++
  "  -r, --recurse         Descend into subdirectories\n" ++
  "  --output OUTPUT       Comma-separated: json,csv,md\n" ++
  "  --out-dir OUT_DIR\n" ++
  "  --out-prefix OUT_PREFIX\n" ++
  "  --overwrite\n" ++
  "  --exclude EXCLUDE\n" ++
  "  --max-file-bytes MAX_FILE_BYTES\n" ++
  "  --status-handle STATUS_HANDLE\n" ++
  "  --no-progress\n" ++
  "  --quiet\n" ++
  "  --verbose\n" ++
  "  --log-file LOG_FILE\n"

/-- The lookup command. -/
def scan : Grammar where
  program := "vtabscan"
  usage := scanUsage
  help := scanHelp
  operands := ["interface", "path"]
  firstRequired := false
  flags := [
    ⟨some 'h', "help", .help⟩,
    ⟨none, "config", .text⟩,
    ⟨none, "dry-run", .nothing⟩,
    ⟨some 'r', "recurse", .nothing⟩,
    ⟨none, "output", .text⟩,
    ⟨none, "out-dir", .text⟩,
    ⟨none, "out-prefix", .text⟩,
    ⟨none, "overwrite", .nothing⟩,
    ⟨none, "exclude", .texts⟩,
    ⟨none, "max-file-bytes", .integer⟩,
    ⟨none, "status-handle", .text⟩,
    ⟨none, "no-progress", .nothing⟩,
    ⟨none, "quiet", .nothing⟩,
    ⟨none, "verbose", .nothing⟩,
    ⟨none, "log-file", .text⟩]

/-- How the measuring command is used. -/
def benchUsage : String :=
  "usage: bench.py [-h] [-r] [--exclude EXCLUDE]\n" ++
  "                [--max-file-bytes MAX_FILE_BYTES] [--repeat REPEAT]\n" ++
  "                interface [path]\n"

/-- What the measuring command understands. -/
def benchHelp : String :=
  benchUsage ++
  "\nBenchmark vtabscan lookup throughput\n\n" ++
  "positional arguments:\n" ++
  "  interface\n" ++
  "  path\n\n" ++
  "options:\n" ++
  "  -h, --help            show this help message and exit\n" ++
  "  -r, --recurse\n" ++
  "  --exclude EXCLUDE\n" ++
  "  --max-file-bytes MAX_FILE_BYTES\n" ++
  "  --repeat REPEAT\n"

/-- The measuring command. -/
def bench : Grammar where
  program := "bench.py"
  usage := benchUsage
  help := benchHelp
  operands := ["interface", "path"]
  firstRequired := true
  flags := [
    ⟨some 'h', "help", .help⟩,
    ⟨some 'r', "recurse", .nothing⟩,
    ⟨none, "exclude", .texts⟩,
    ⟨none, "max-file-bytes", .integer⟩,
    ⟨none, "repeat", .integer⟩]

end ComLayout.CommandLine
