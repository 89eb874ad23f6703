namespace VoxelOctree

namespace CommandLine

def versionText : List String :=
  ["fastvox-convert 0.1.0"]

def summaryText : List String :=
  [
    "Converts MagicaVoxel models into flattened sparse voxel octrees",
    "",
    "Usage: fastvox-convert [OPTIONS]",
    "",
    "Options:",
    "  -i, --input <INPUT>          MagicaVoxel file to read [default: test.vox]",
    "  -o, --output <OUTPUT>        File to write [default: scene_vox.json]",
    "  -m, --model <MODEL>          Model index within the file [default: 0]",
    "      --max-depth <MAX_DEPTH>  Reject models needing a deeper octree [default: 16]",
    "      --max-nodes <MAX_NODES>  Fail instead of growing the octree past this many nodes",
    "      --anchor <X> <Y> <Z>     World-space center of the root node",
    "      --seed <SEED>            Seed for placeholder materials",
    "      --parallel               Compile top-level octants in parallel",
    "      --format <FORMAT>        Output encoding [default: json] [possible values: json, gpu]",
    "      --pretty                 Indent JSON output",
    "  -h, --help                   Print help (see more with '--help')",
    "  -V, --version                Print version"]

def helpText : List String :=
  [
    "Converts MagicaVoxel models into flattened sparse voxel octrees",
    "",
    "Usage: fastvox-convert [OPTIONS]",
    "",
    "Options:",
    "  -i, --input <INPUT>",
    "          MagicaVoxel file to read",
    "          ",
    "          [default: test.vox]",
    "",
    "  -o, --output <OUTPUT>",
    "          File to write",
    "          ",
    "          [default: scene_vox.json]",
    "",
    "  -m, --model <MODEL>",
    "          Model index within the file",
    "          ",
    "          [default: 0]",
    "",
    "      --max-depth <MAX_DEPTH>",
    "          Reject models needing a deeper octree",
    "          ",
    "          [default: 16]",
    "",
    "      --max-nodes <MAX_NODES>",
    "          Fail instead of growing the octree past this many nodes",
    "",
    "      --anchor <X> <Y> <Z>",
    "          World-space center of the root node",
    "",
    "      --seed <SEED>",
    "          Seed for placeholder materials",
    "",
    "      --parallel",
    "          Compile top-level octants in parallel",
    "",
    "      --format <FORMAT>",
    "          Output encoding",
    "",
    "          Possible values:",
    "          - json: JSON scene records",
    "          - gpu:  Raw GPU node buffer",
    "          ",
    "          [default: json]",
    "",
    "      --pretty",
    "          Indent JSON output",
    "",
    "  -h, --help",
    "          Print help (see a summary with '-h')",
    "",
    "  -V, --version",
    "          Print version"]

end CommandLine

end VoxelOctree
